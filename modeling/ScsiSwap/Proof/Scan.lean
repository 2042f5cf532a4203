import ScsiSwap.Proof.Persisted

/-!
# The two scans of the table

`calc_swap_info_num` stops at a slot with a wrong size or a wrong checksum. `init_swap_info` stops at
a wrong size, and gives up at a wrong checksum.

* `loadSlot_cases`, `loadSlots_ends`, `loadTable_ends`: what a load has found when it did not give up;
* `scans_agree`: when the second scan loads what the first one has counted;
* `copies_agree_iff`: when the two copies are the same after it.
-/

namespace ScsiSwap

open StateOption SkipStore ByteCodec

variable {E : Env} {s s' : World} {R : ℕ} {bad : ℕ → Bool} {r : SlotRes}

/-! ## What a load has found -/

/-- The data of an entry can be read. -/
def Env.DataReadable (E : Env) (t : SwapTable) :
    Prop := ∀ tick, E.read tick ⟨t.swapSec.toNat % 2 ^ 32, 128, 5⟩ = .ok

theorem allocSwapInfoData_none {start n : ℕ} {data : Option Block} (hk : E.kmalloc s.tick ≠ true)
    (h : (allocSwapInfoData E start n).run s = some (data, s')) : data = none := by
  unfold allocSwapInfoData at h
  rw [run_bind_of (kmalloc_run E s), if_neg hk] at h
  exact (run_pure_iff.1 h).1

/-- One slot whose data can be read if it is an entry. Without memory for the data the loader gives up, or
dies. -/
theorem loadSlot_cases {t t' : SwapTable} (hdata : t.valid = true → E.DataReadable t)
    (h : (loadSlot E t).run s = some ((r, t'), s')) (hr : r ≠ .error) :
    t' = t ∧ s'.disk = s.disk ∧ Loads (fun t d => d = blockAt s.disk t) ([t].takeWhile SwapTable.valid) s s' ∧
      (r = .loaded ↔ t.valid = true) ∧ (t.valid = false → t.secSize ≠ 128) := by
  by_cases hk : E.kmalloc s.tick = true
  · by_cases hs : t.secSize = 128
    · -- past the first test, there must be an entry
      have hrun := h
      unfold loadSlot at h
      rw [run_bind_of (kmalloc_run E s), if_pos hk, run_get_bind] at h
      dsimp only at h
      rw [run_set_bind, if_neg (not_not.2 hs)] at h
      split at h
      · exact absurd (congrArg Prod.fst (run_pure_iff.1 h).1) hr
      rename_i hrange
      split at h
      · exact absurd (congrArg Prod.fst (run_pure_iff.1 h).1) hr
      rename_i hcrc
      have hcrc := not_not.1 hcrc
      have hv : t.valid = true := decide_eq_true ⟨hs, hcrc⟩
      have hload : Loadable E s.geom t :=
        ⟨hcrc, Nat.le_of_not_lt (not_or.1 hrange).1, Nat.le_of_not_lt (not_or.1 hrange).2, hdata hv⟩
      by_cases hk' : E.kmalloc (s.tick + 1) = true
      · obtain ⟨s₁, h1, hd, hl⟩ := loadSlot_loaded hk hk' hs hload
        obtain ⟨he, rfl⟩ := run_det hrun h1
        obtain ⟨rfl, ht⟩ := Prod.mk.inj he
        rw [List.takeWhile_cons_of_pos hv]
        exact ⟨ht.symm, hd, hl, by simp [hv], by simp [hv]⟩
      · obtain ⟨data, s₁, h1, h2⟩ := run_bind_iff.1 h
        obtain rfl := allocSwapInfoData_none hk' h1
        rw [run_modify_bind] at h2
        obtain ⟨ok, s₂, h3, h4⟩ := run_bind_iff.1 h2
        obtain ⟨rfl, -⟩ := swapRecreate_null h3 (by simp [World.setInfo])
        exact absurd (congrArg Prod.fst (run_pure_iff.1 h4).1) hr
    · obtain ⟨s₁, h1, hd, hl⟩ := loadSlot_stop (Q := fun t d => d = blockAt s.disk t) hk hs
      obtain ⟨he, rfl⟩ := run_det h h1
      obtain ⟨rfl, ht⟩ := Prod.mk.inj he
      have hv : t.valid = false := decide_eq_false fun h => hs h.1
      rw [List.takeWhile_cons_of_neg (by rw [hv]; simp)]
      exact ⟨ht.symm, hd, hl, by simp [hv], fun _ => hs⟩
  · unfold loadSlot at h
    rw [run_bind_of (kmalloc_run E s), if_neg hk] at h
    exact absurd (congrArg Prod.fst (run_pure_iff.1 h).1) hr

/-- The slots of a sector. -/
theorem loadSlots_ends {b b' : Sector}
    (hdata : ∀ j, (tableSlots b j).valid = true → E.DataReadable (tableSlots b j)) :
    ∀ {js : List (Fin 8)} {s s' : World}, (loadSlots E js b).run s = some ((r, b'), s') → r ≠ .error →
    b' = b ∧ s'.disk = s.disk ∧
      Loads (fun t d => d = blockAt s.disk t) ((js.map (tableSlots b)).takeWhile SwapTable.valid) s s' ∧
      (r = .loaded ↔ ((js.map (tableSlots b)).takeWhile SwapTable.valid).length = js.length) ∧
      ∀ t ∈ ((js.map (tableSlots b)).dropWhile SwapTable.valid).head?, t.secSize ≠ 128 := by
  intro js
  induction js with
  | nil =>
    intro s s' h _
    obtain ⟨he, hs⟩ := run_pure_iff.1 h
    obtain ⟨rfl, rfl⟩ := Prod.mk.inj he
    rw [hs]
    exact ⟨rfl, rfl, (Calm.refl s).loads, by simp, by simp⟩
  | cons j js ih =>
    intro s s' h hr
    unfold loadSlots at h
    obtain ⟨⟨r₁, t'⟩, s₁, h1, h2⟩ := run_bind_iff.1 h
    dsimp only at h2
    have hr₁ : r₁ ≠ .error := by
      rintro rfl
      rw [if_neg (by simp)] at h2
      exact hr (congrArg Prod.fst (run_pure_iff.1 h2).1)
    obtain ⟨rfl, hd1, hl1, hloaded, hstop⟩ := loadSlot_cases (hdata j) h1 hr₁
    rw [putTable_self] at h2
    rw [List.map_cons]
    by_cases hv : (tableSlots b j).valid = true
    · rw [if_pos (hloaded.2 hv)] at h2
      obtain ⟨rfl, hd2, hl2, hiff, hend⟩ := ih h2 hr
      rw [List.takeWhile_cons_of_pos hv, List.dropWhile_cons_of_pos hv]
      rw [List.takeWhile_cons_of_pos hv] at hl1
      rw [hd1] at hl2
      refine ⟨rfl, hd2.trans hd1, hl1.trans hl2, ?_, hend⟩
      rw [hiff, List.length_cons, List.length_cons]
      omega
    · rw [if_neg fun h => hv (hloaded.1 h)] at h2
      obtain ⟨he, rfl⟩ := run_pure_iff.1 h2
      obtain ⟨rfl, hb⟩ := Prod.mk.inj he
      rw [List.takeWhile_cons_of_neg hv] at hl1
      rw [List.takeWhile_cons_of_neg hv, List.dropWhile_cons_of_neg hv]
      refine ⟨hb, hd1, hl1, ?_, ?_⟩
      · simp only [List.length_nil, List.length_cons]
        exact ⟨fun h => absurd (hloaded.1 h) hv, fun h => by omega⟩
      · intro t ht
        obtain rfl : tableSlots b j = t := Option.some.inj ht
        exact hstop (Bool.eq_false_iff.2 hv)

section

variable {a : ℕ} (hE : E.ReadFaults R bad) (ha : a + 1000 ≤ maxReservedSector)
include hE ha

/-- The sectors of an area. -/
theorem loadTable_ends (sync : TableSync) (c limit : ℕ) (hc : c + 1000 ≤ maxReservedSector)
    (hsep : c + 1000 ≤ a ∨ a + 1000 ≤ c) : ∀ {n k pos : ℕ} {s s' : World}, k + n ≤ 32 →
    (sync ≠ .noNeedSync → limit = R + c + 32 ∧ ∃ m ≤ 32 + k, pos = R + c + m) →
    (∀ i < 32, bad (a + i) = false → ∀ j, (tableSlots (area s.disk R a i) j).valid = true →
      E.DataReadable (tableSlots (area s.disk R a i) j)) →
    (loadTable E sync limit n (R + (a + k)) pos).run s = some (true, s') →
    Loads (fun _ _ => True) (scan 8 (seen bad s.disk R a) n k) s s' ∧ (sync = .noNeedSync → s'.disk = s.disk) ∧
      ∀ t ∈ tableEnd bad s.disk R a n k, t.secSize ≠ 128 := by
  intro n
  induction n with
  | zero =>
    intro k pos s s' _ _ _ h
    obtain ⟨-, hs⟩ := run_pure_iff.1 h
    rw [hs]
    exact ⟨(Calm.refl s).loads, fun _ => rfl, by simp [tableEnd]⟩
  | succ n ih =>
    intro k pos s s' hkn hpos hdata h
    obtain ⟨buf, s₁, h1, hc1, hd1, hbuf⟩ := readFaults_run (s := s) hE (show a + k < maxReservedSector by omega)
    unfold loadTable at h
    unfold scan tableEnd
    rw [run_bind_of h1] at h
    dsimp only at h
    have hl1 : Loads (fun _ _ => True) [] s s₁ := hc1.loads
    cases hb : bad (a + k) with
    | true =>
      -- a sector that cannot be read is passed over
      rw [hb, if_neg (by simp)] at h
      rw [show seen bad s.disk R a k = none by unfold seen; rw [hb]; rfl, if_pos rfl, ← hd1]
      rw [← hd1] at hdata
      obtain ⟨hl2, hd2, hend⟩ := ih (k := k + 1) (by omega)
        (fun h => by obtain ⟨e, m, hm, e'⟩ := hpos h; exact ⟨e, m, by omega, e'⟩) hdata h
      exact ⟨hl1.trans hl2, hd2, hend⟩
    | false =>
      rw [hb, if_pos (show (!false) = true from rfl), hbuf hb] at h
      rw [show seen bad s.disk R a k = some (entriesOf (area s.disk R a k)) by unfold seen; rw [hb]; rfl,
        if_neg (by simp)]
      dsimp only
      obtain ⟨⟨r, b'⟩, s₂, h2, h3⟩ := run_bind_iff.1 h
      dsimp only at h3
      split at h3
      · exact absurd (run_pure_iff.1 h3).1 (by simp)
      rename_i hr
      obtain ⟨rfl, hd2, hl2, hiff, hend⟩ := loadSlots_ends (hdata k (by omega) hb) h2 hr
      rw [List.length_finRange] at hiff
      have hfull : r = .loaded ↔ (entriesOf (area s.disk R a k)).length = 8 := hiff
      -- what is written for the other copy does not touch this one
      obtain ⟨pos', s₃, h4, hc4, hd4, harea, hpos'⟩ :=
        syncWrite_runs (E := E) (R := R) ha (b := area s.disk R a k) s₂ (show k < 32 by omega) hc hsep hpos
      rw [run_bind_of h4] at h3
      have hl3 := (hl1.trans (hl2.mono fun _ _ _ => trivial)).trans (hc4.loads (Q := fun _ _ => True))
      rw [List.nil_append, List.append_nil] at hl3
      have hdisk : sync = .noNeedSync → s₃.disk = s.disk := fun h => (hd4 h).trans (hd2.trans hd1)
      have harea' : ∀ i < 32, area s₃.disk R a i = area s.disk R a i := fun i hi => by rw [harea i hi, hd2, hd1]
      cases r with
      | error => exact absurd rfl hr
      | stop =>
        -- the entries end in this sector, and with them the table
        have hlt : (entriesOf (area s.disk R a k)).length < 8 := by
          have h8 := entriesOf_length_le (area s.disk R a k)
          have hne : (entriesOf (area s.disk R a k)).length ≠ 8 := fun he => by simpa using hfull.2 he
          omega
        obtain ⟨t, ht⟩ := Option.ne_none_iff_exists'.1 fun he => hlt.ne ((endOf_eq_none _).1 he)
        obtain ⟨-, rfl⟩ := run_pure_iff.1 h3
        rw [if_pos hlt, ht, Option.some_or]
        exact ⟨hl3, hdisk, ht ▸ hend⟩
      | loaded =>
        have hlen := hfull.1 rfl
        rw [if_neg (show ¬ SlotRes.loaded = SlotRes.stop by simp)] at h3
        rw [if_neg (by omega), (endOf_eq_none _).2 hlen, Option.none_or]
        obtain ⟨hl4, hd4, hend4⟩ :=
          ih (by omega) hpos' (fun i hi hbi => by rw [harea' i hi]; exact hdata i hi hbi) h3
        have hseen : scan 8 (seen bad s₃.disk R a) n (k + 1) = scan 8 (seen bad s.disk R a) n (k + 1) := by
          refine scan_congr fun i h1 h2 => ?_
          unfold seen
          rw [harea' i (by omega)]
        rw [hseen] at hl4
        rw [tableEnd_congr fun i h1 h2 => harea' i (by omega)] at hend4
        exact ⟨hl3.trans hl4, fun h => (hd4 h).trans (hdisk h), hend4⟩

end

/-- The data of all entries that can be read can be read as well. -/
def AllReadable (E : Env) (R : ℕ) (bad : ℕ → Bool) (disk : ℕ → Sector) : Prop :=
  ∀ a, a = swapTableOffset ∨ a = swapTableBackupOffset → ∀ i < 32, bad (a + i) = false → ∀ j,
    (tableSlots (area disk R a i) j).valid = true → E.DataReadable (tableSlots (area disk R a i) j)

theorem AllLoadable.readable (h : AllLoadable E R bad s) : AllReadable E R bad s.disk :=
  fun a ha i hi hb j hv => (h a ha i hi hb j hv).data

/-! ## The copy that is taken -/

/-- The entries of the copy at offset `a`, as far as they are counted when the sectors `bad` cannot be read. -/
def counted (bad : ℕ → Bool) (R : ℕ) (disk : ℕ → Sector) (a : ℕ) :
    List SwapTable := scan 8 (seen bad disk R a) 32 0

/-- The offset of the copy with more entries. -/
def largerCopy (bad : ℕ → Bool) (R : ℕ) (disk : ℕ → Sector) : ℕ :=
  if (counted bad R disk swapTableOffset).length < (counted bad R disk swapTableBackupOffset).length then
    swapTableBackupOffset
  else swapTableOffset

/-- There are no entries, or those of the copy that is taken do not end with a slot that has the right size. -/
def EndsClean (bad : ℕ → Bool) (R : ℕ) (disk : ℕ → Sector) : Prop :=
  (counted bad R disk swapTableOffset = [] ∧ counted bad R disk swapTableBackupOffset = []) ∨
    ∀ t ∈ tableEnd bad disk R (largerCopy bad R disk) 32 0, t.secSize ≠ 128

/-- The mappings in the list. -/
def World.mappings (s : World) : List SwapTable := s.core.infoList.map fun p => (s.heap p).table

theorem Loads.mappings {Q : SwapTable → Block → Prop} {es : List SwapTable} (h : Loads Q es s s')
    (hnil : s.core.infoList = []) : s'.mappings = es := by
  obtain ⟨ps, hps, -, -, hes, -⟩ := h.list
  rw [World.mappings, hps, hnil, List.nil_append, hes]

/-- What there is to say of an `init_swap_info` that returns 0. -/
theorem initSwapInfo_ends (hE : E.ReadFaults R bad) (ht : s.core.sectorTable = R + swapTableOffset)
    (hr : s.core.sectorReserveStart = R) (hdata : AllReadable E R bad s.disk)
    (h : (initSwapInfo E).run s = some (true, s')) :
    s'.mappings = counted bad R s.disk (largerCopy bad R s.disk) ∧ EndsClean bad R s.disk ∧
      ((counted bad R s.disk swapTableOffset).length = (counted bad R s.disk swapTableBackupOffset).length →
        s'.disk = s.disk) := by
  have hmo : swapTableOffset + 1000 ≤ maxReservedSector := by decide
  have hbo : swapTableBackupOffset + 1000 ≤ maxReservedSector := by decide
  have hsep : swapTableOffset + 1000 ≤ swapTableBackupOffset := by decide
  obtain ⟨s₂, hc, hd, hrun⟩ := initSwapInfo_run hE ht hr (m := counted bad R s.disk swapTableOffset)
    (b := counted bad R s.disk swapTableBackupOffset) rfl rfl
  have hl : Loads (fun _ _ => True) [] _ s₂ := hc.loads
  rw [hrun] at h
  rw [← hd] at hdata
  unfold largerCopy EndsClean
  split at h
  · -- the backup has more
    rename_i hlt
    obtain ⟨hl3, -, hend⟩ := loadTable_ends hE hbo .masterNeedSync swapTableOffset _ hmo (Or.inl hsep) (by omega)
      (fun _ => ⟨rfl, 0, by omega, rfl⟩) (hdata _ (Or.inr rfl)) h
    rw [hd] at hl3 hend
    unfold largerCopy
    rw [if_pos hlt]
    exact ⟨(hl.trans hl3).mappings rfl, Or.inr hend, fun he => by omega⟩
  rename_i hnlt
  unfold largerCopy
  rw [if_neg hnlt]
  split at h
  · -- the master has more
    rename_i hgt
    obtain ⟨hl3, -, hend⟩ := loadTable_ends hE hmo .backupNeedSync swapTableBackupOffset _ hbo
      (Or.inr hsep) (by omega)
      (fun _ => ⟨rfl, 0, by omega, rfl⟩) (hdata _ (Or.inl rfl)) h
    rw [hd] at hl3 hend
    exact ⟨(hl.trans hl3).mappings rfl, Or.inr hend, fun he => by omega⟩
  rename_i hngt
  split at h
  · -- nothing in either
    rename_i h0
    obtain ⟨-, rfl⟩ := run_pure_iff.1 h
    have hm := List.eq_nil_of_length_eq_zero h0
    have hb : counted bad R s.disk swapTableBackupOffset = [] := List.eq_nil_of_length_eq_zero (by omega)
    rw [hm]
    exact ⟨hl.mappings rfl, Or.inl ⟨rfl, hb⟩, fun _ => hd⟩
  · obtain ⟨hl3, hd3, hend⟩ := loadTable_ends hE hmo .noNeedSync swapTableBackupOffset _ hbo
      (Or.inr hsep) (by omega)
      (fun h => absurd rfl h) (hdata _ (Or.inl rfl)) h
    rw [hd] at hl3 hend
    exact ⟨(hl.trans hl3).mappings rfl, Or.inr hend, fun _ => (hd3 rfl).trans hd⟩

theorem counted_largerCopy (bad : ℕ → Bool) (R : ℕ) (disk : ℕ → Sector) :
    counted bad R disk (largerCopy bad R disk) =
        (if (counted bad R disk swapTableOffset).length < (counted bad R disk swapTableBackupOffset).length then
          counted bad R disk swapTableBackupOffset else counted bad R disk swapTableOffset) ∧
      (counted bad R disk (largerCopy bad R disk)).length =
        max (counted bad R disk swapTableOffset).length (counted bad R disk swapTableBackupOffset).length := by
  unfold largerCopy
  split
  · exact ⟨rfl, by omega⟩
  · exact ⟨rfl, by omega⟩

/-! ## Tables to try things on -/

/-- A table sector with the entries `ts`. -/
def sectorOf (ts : List SwapTable) : Sector :=
  (chunkEquiv 8 64).symm fun j => swapTableEquiv (ts.getD j SwapTable.zero)

theorem holds_sectorOf (ts : List SwapTable) : Holds (sectorOf ts) ts := by
  intro j
  unfold tableSlots sectorOf
  rw [Equiv.apply_symm_apply, Equiv.symm_apply_apply]

/-- A reserve at sector 1000, with one sector of entries in each copy of the table. -/
def World.twoCopies (m b : List SwapTable) : World :=
  { World.blank with
    core := { World.blank.core with
      sectorReserveStart := 1000, sectorTable := 1000 + swapTableOffset, sectorData := 1000 + swapDataOffset }
    disk := fun x =>
      if x = 1000 + swapTableOffset then sectorOf m
      else if x = 1000 + swapTableBackupOffset then sectorOf b
      else zeroSector }

/-- The entry that maps block `src` to the spare block `i`. -/
def entryAt (src i : ℕ) : SwapTable := entryFor (1000 + swapDataOffset) src i

theorem entryAt_valid (src i : ℕ) : (entryAt src i).valid = true := decide_eq_true ⟨rfl, crc_congr rfl⟩

theorem entryAt_loadable {src i : ℕ} (hsrc : src ≤ 1000) (hi : i < 1024) (m b : List SwapTable) :
    Loadable (Env.refusing fun _ _ => false) (World.twoCopies m b).geom (entryAt src i) := by
  refine ⟨crc_congr rfl, ?_, ?_, fun _ => rfl⟩
  · show 1000 + swapDataOffset ≤ (BitVec.ofNat 64 (1000 + swapDataOffset + 128 * i)).toNat
    have : swapDataOffset = 49152 := rfl
    rw [BitVec.toNat_ofNat]
    omega
  · show (BitVec.ofNat 64 src).toNat ≤ 1000
    rw [BitVec.toNat_ofNat]
    omega

theorem slots_twoCopies (m b : List SwapTable) (a i : ℕ) (j : Fin 8) :
    tableSlots (area (World.twoCopies m b).disk 1000 a i) j ∈ m ++ b ∨
      tableSlots (area (World.twoCopies m b).disk 1000 a i) j = SwapTable.zero := by
  have hof : ∀ ts : List SwapTable, ts.getD j SwapTable.zero ∈ ts ∨
      ts.getD j SwapTable.zero = SwapTable.zero := by
    intro ts
    rcases Nat.lt_or_ge j ts.length with hlt | hge
    · rw [List.getD_eq_getElem _ _ hlt]
      exact Or.inl (List.getElem_mem hlt)
    · exact Or.inr (List.getD_eq_default _ _ hge)
  unfold area World.twoCopies
  dsimp only
  split
  · rw [holds_sectorOf m j]
    exact (hof m).imp_left (List.mem_append_left _)
  split
  · rw [holds_sectorOf b j]
    exact (hof b).imp_left (List.mem_append_right _)
  · exact Or.inr (tableSlots_zero j)

theorem packed_twoCopies {m b : List SwapTable}
    (h : ∀ t ∈ m ++ b, Loadable E (World.twoCopies m b).geom t) (a i : ℕ) :
    Packed E (World.twoCopies m b).geom (area (World.twoCopies m b).disk 1000 a i) := by
  intro j hs
  rcases slots_twoCopies m b a i j with hj | hj
  · exact h _ hj
  · rw [hj] at hs
    exact absurd hs (by decide)

theorem loadable_twoCopies {m b : List SwapTable}
    (h : ∀ t ∈ m ++ b, t.valid = true → Loadable E (World.twoCopies m b).geom t) :
    AllLoadable E 1000 (fun _ => false) (World.twoCopies m b) := by
  intro a _ i _ _ j hv
  rcases slots_twoCopies m b a i j with hj | hj
  · exact h _ hj hv
  · rw [hj, zero_not_valid] at hv
    exact absurd hv (by simp)

/-- What is counted of the master, and of the backup. -/
theorem decoded_twoCopies (m b : List SwapTable) :
    ((entriesOf (sectorOf m)).length < 8 →
      decoded 1000 (World.twoCopies m b).disk swapTableOffset = entriesOf (sectorOf m)) ∧
    ((entriesOf (sectorOf b)).length < 8 →
      decoded 1000 (World.twoCopies m b).disk swapTableBackupOffset = entriesOf (sectorOf b)) := by
  constructor
  · intro h
    unfold decoded scan
    rw [seen_readable]
    exact if_pos h
  · intro h
    unfold decoded scan
    rw [seen_readable]
    exact if_pos h

/-- Good entries in both copies. -/
theorem good_twoCopies {m b : List SwapTable} (hm : m.length < 8) (hb : b.length < 8)
    (h : ∀ t ∈ m ++ b, ∃ src ≤ 1000, ∃ i < 1024, t = entryAt src i) :
    (∀ t ∈ m ++ b, Loadable (Env.refusing fun _ _ => false) (World.twoCopies m b).geom t) ∧
      decoded 1000 (World.twoCopies m b).disk swapTableOffset = m ∧
      decoded 1000 (World.twoCopies m b).disk swapTableBackupOffset = b := by
  have hv : ∀ t ∈ m ++ b, t.valid = true := fun t ht => by
    obtain ⟨src, -, i, -, rfl⟩ := h t ht
    exact entryAt_valid src i
  have hem := (holds_sectorOf m).entries hm.le fun t ht => hv t (List.mem_append_left _ ht)
  have heb := (holds_sectorOf b).entries hb.le fun t ht => hv t (List.mem_append_right _ ht)
  obtain ⟨hdm, hdb⟩ := decoded_twoCopies m b
  rw [hem] at hdm
  rw [heb] at hdb
  refine ⟨fun t ht => ?_, hdm hm, hdb hb⟩
  obtain ⟨src, hsrc, i, hi, rfl⟩ := h t ht
  exact entryAt_loadable hsrc hi m b

/-- **The two scans.** For tables whose entries are in range and have data that can be read, whatever else is
in them and whichever of their sectors cannot be read: if `init_swap_info` loads what `calc_swap_info_num` has
counted, then the entries of the copy it takes do not end with a slot that has the size of one, and with enough
memory the other way round. -/
theorem scans_agree (hE : E.ReadFaults R bad) (ht : s.core.sectorTable = R + swapTableOffset)
    (hr : s.core.sectorReserveStart = R) (hload : AllLoadable E R bad s) :
    let agree := ∃ s', (initSwapInfo E).run s = some (true, s') ∧
      s'.core.infoNum = max (counted bad R s.disk swapTableOffset).length
        (counted bad R s.disk swapTableBackupOffset).length ∧
      s'.mappings = counted bad R s.disk (largerCopy bad R s.disk)
    (∀ a, a = swapTableOffset ∨ a = swapTableBackupOffset →
      ∃ s₁, (calcSwapInfoNum E swpaTableNSector (R + a) 0).run s = some ((counted bad R s.disk a).length, s₁)) ∧
    (agree → EndsClean bad R s.disk) ∧ ((∀ t, E.kmalloc t = true) → EndsClean bad R s.disk → agree) := by
  intro agree
  refine ⟨?_, ?_, ?_⟩
  · intro a ha
    have ha' : a + 1000 ≤ maxReservedSector := by rcases ha with rfl | rfl <;> decide
    obtain ⟨s₁, h, -, -⟩ := calcSwapInfoNum_scan hE ha' (s := s) (k := 0) (n := 32) 0 (by omega)
    rw [Nat.zero_add, Nat.add_zero] at h
    exact ⟨s₁, h⟩
  · rintro ⟨s', h, -, -⟩
    exact (initSwapInfo_ends hE ht hr hload.readable h).2.1
  · intro hk hend
    obtain ⟨s', h, hl, -⟩ := initSwapInfo_loads hE hk ht hr (fun a ha i hi hb => hload.front ha hi hb)
      (m := counted bad R s.disk swapTableOffset) (b := counted bad R s.disk swapTableBackupOffset) rfl rfl hend
    obtain ⟨hcopy, hlen⟩ := counted_largerCopy bad R s.disk
    rw [← hcopy] at hl
    refine ⟨s', h, ?_, hl.mappings rfl⟩
    rw [hl.num, hlen]
    exact Nat.zero_add _

/-- Two entries in the master and one in the backup: the two of the master. -/
theorem scans_agree_two :
    let s := World.twoCopies [entryAt 0 0, entryAt 128 1] [entryAt 0 0]
    ∃ s', (initSwapInfo (Env.refusing fun _ _ => false)).run s = some (true, s') ∧ s'.core.infoNum = 2 ∧
      s'.mappings = [entryAt 0 0, entryAt 128 1] := by
  intro s
  obtain ⟨hl, hcm, hcb⟩ := good_twoCopies (m := [entryAt 0 0, entryAt 128 1]) (b := [entryAt 0 0])
    (by simp) (by simp) (by
    simp only [List.cons_append, List.nil_append, List.mem_cons, List.not_mem_nil, or_false,
      forall_eq_or_imp, forall_eq]
    exact ⟨⟨0, by omega, 0, by omega, rfl⟩, ⟨128, by omega, 1, by omega, rfl⟩, 0, by omega, 0, by omega, rfl⟩)
  have hcm : counted (fun _ => false) 1000 s.disk swapTableOffset = _ := hcm
  have hcb : counted (fun _ => false) 1000 s.disk swapTableBackupOffset = _ := hcb
  have hlarger : largerCopy (fun _ => false) 1000 s.disk = swapTableOffset := by
    unfold largerCopy
    rw [hcm, hcb]
    rfl
  have hread : (Env.refusing fun _ _ => false).Readable := fun _ _ => rfl
  obtain ⟨-, -, h⟩ := scans_agree (hread.faults 1000) (s := s) rfl rfl (loadable_twoCopies fun t ht _ => hl t ht)
  obtain ⟨s', hrun, hnum, hmap⟩ := h (fun _ => rfl)
    (Or.inr (tableEnd_of_packed (by omega) fun i _ _ => packed_twoCopies hl _ i))
  rw [hcm, hcb] at hnum
  rw [hlarger, hcm] at hmap
  exact ⟨s', hrun, hnum, hmap⟩

/-- A torn entry behind a good one in the master: nothing is loaded, although the backup is in order. -/
theorem scans_disagree :
    let torn := { entryAt 128 1 with checksum := (entryAt 128 1).crc + 1 }
    let s := World.twoCopies [entryAt 0 0, torn] [entryAt 0 0]
    AllLoadable (Env.refusing fun _ _ => false) 1000 (fun _ => false) s ∧
      decoded 1000 s.disk swapTableOffset = [entryAt 0 0] ∧
        decoded 1000 s.disk swapTableBackupOffset = [entryAt 0 0] ∧
      ¬ ∃ s', (initSwapInfo (Env.refusing fun _ _ => false)).run s = some (true, s') := by
  intro torn s
  have htorn : torn.valid = false := by
    refine decide_eq_false fun h => ?_
    have hcrc : torn.crc = (entryAt 128 1).crc := crc_congr rfl
    have h : torn.crc = (entryAt 128 1).crc + 1 := h.2
    rw [hcrc] at h
    simp at h
  have hslots : (List.finRange 8).map (tableSlots (sectorOf [entryAt 0 0, torn])) =
      entryAt 0 0 :: torn :: List.replicate 6 SwapTable.zero :=
    List.map_congr_left fun j _ => holds_sectorOf _ j
  have hm : entriesOf (sectorOf [entryAt 0 0, torn]) = [entryAt 0 0] := by
    unfold entriesOf
    rw [hslots, List.takeWhile_cons_of_pos (entryAt_valid 0 0), List.takeWhile_cons_of_neg (by rw [htorn]; simp)]
  have hend : endOf (sectorOf [entryAt 0 0, torn]) = some torn := by
    unfold endOf
    rw [hslots, List.dropWhile_cons_of_pos (entryAt_valid 0 0), List.dropWhile_cons_of_neg (by rw [htorn]; simp)]
    rfl
  have hb : entriesOf (sectorOf [entryAt 0 0]) = [entryAt 0 0] :=
    (holds_sectorOf _).entries (by simp) (by simp [entryAt_valid])
  obtain ⟨hdm, hdb⟩ := decoded_twoCopies [entryAt 0 0, torn] [entryAt 0 0]
  rw [hm] at hdm
  rw [hb] at hdb
  have hload : AllLoadable (Env.refusing fun _ _ => false) 1000 (fun _ => false) s := by
    refine loadable_twoCopies fun t ht hv => ?_
    simp only [List.cons_append, List.nil_append, List.mem_cons, List.not_mem_nil, or_false] at ht
    rcases ht with rfl | rfl | rfl
    · exact entryAt_loadable (by omega) (by omega) _ _
    · rw [htorn] at hv
      exact absurd hv (by simp)
    · exact entryAt_loadable (by omega) (by omega) _ _
  have hcm : counted (fun _ => false) 1000 s.disk swapTableOffset = _ := hdm (by simp)
  have hcb : counted (fun _ => false) 1000 s.disk swapTableBackupOffset = _ := hdb (by simp)
  refine ⟨hload, hcm, hcb, ?_⟩
  rintro ⟨s', h⟩
  have hread : (Env.refusing fun _ _ => false).Readable := fun _ _ => rfl
  obtain ⟨-, hclean, -⟩ := initSwapInfo_ends (hread.faults 1000) (s := s) rfl rfl hload.readable h
  unfold EndsClean largerCopy at hclean
  rw [hcm, hcb] at hclean
  -- both have one entry, so the master is taken
  rcases hclean with ⟨h0, -⟩ | hclean
  · exact absurd h0 (by simp)
  · refine hclean torn ?_ rfl
    show ((endOf (sectorOf [entryAt 0 0, torn])).or _) = some torn
    rw [hend, Option.some_or]

/-! ## The other copy -/

/-- All writes succeed. -/
def Env.WritesAll (E : Env) : Prop := ∀ t c b, E.write t c b = .ok

/-- A sector that can be written is written where it belongs. -/
theorem writeSkip_first (hW : E.WritesAll) {b : Sector} {limit fuel sect t : ℕ}
    (h : (writeSkip E b limit fuel sect).run s = some (t, s')) :
    t = sect + 1 ∧ s'.disk = Function.update s.disk (sect % 2 ^ 32) b := by
  unfold writeSkip at h
  obtain ⟨ok, s₁, h1, h2⟩ := run_bind_iff.1 h
  obtain ⟨hok, hd⟩ := hdWriteSector_one h1
  rw [hW] at hok hd
  have hok : ok = true := hok
  rw [if_pos (Or.inl hok)] at h2
  obtain ⟨rfl, rfl⟩ := run_pure_iff.1 h2
  exact ⟨rfl, hd⟩

/-- The sectors that are loaded are written to the other area, one by one. Nothing else is. -/
theorem loadTable_copies (hR : E.Readable) (hW : E.WritesAll) {sync : TableSync}
    (hsync : sync ≠ .noNeedSync) {a c : ℕ}
    (ha : a + 1000 ≤ maxReservedSector) (hc : c + 1000 ≤ maxReservedSector) (hsep : c + 1000 ≤ a ∨ a + 1000 ≤ c) :
    ∀ {n k : ℕ} {s s' : World}, k + n ≤ 32 →
    (loadTable E sync (R + c + 32) n (R + (a + k)) (R + c + k)).run s = some (true, s') →
    (∀ x, (∀ i, k ≤ i → i < 32 → x ≠ (R + (c + i)) % 2 ^ 32) → s'.disk x = s.disk x) ∧
      scan 8 (seen (fun _ => false) s'.disk R c) n k = scan 8 (seen (fun _ => false) s.disk R a) n k := by
  intro n
  induction n with
  | zero =>
    intro k s s' _ h
    obtain ⟨-, rfl⟩ := run_pure_iff.1 h
    unfold scan
    exact ⟨fun _ _ => rfl, rfl⟩
  | succ n ih =>
    intro k s s' hkn h
    obtain ⟨buf, s₁, h1, -, hd1, hbuf⟩ :=
      readFaults_run (s := s) (hR.faults R) (show a + k < maxReservedSector by omega)
    unfold loadTable at h
    rw [run_bind_of h1] at h
    dsimp only at h
    rw [if_pos (show (!false) = true from rfl), hbuf rfl] at h
    obtain ⟨⟨r, b'⟩, s₂, h2, h3⟩ := run_bind_iff.1 h
    dsimp only at h3
    split at h3
    · exact absurd (run_pure_iff.1 h3).1 (by simp)
    rename_i hr
    obtain ⟨rfl, hd2, -, hiff, -⟩ := loadSlots_ends (fun j _ tick => hR _ _) h2 hr
    rw [List.length_finRange] at hiff
    have hfull : r = .loaded ↔ (entriesOf (area s.disk R a k)).length = 8 := hiff
    obtain ⟨pos, s₃, h4, h5⟩ := run_bind_iff.1 h3
    obtain ⟨rfl, hd3⟩ := writeSkip_first hW h4
    have hd3 : s₃.disk = Function.update s.disk ((R + (c + k)) % 2 ^ 32) (area s.disk R a k) := by
      rw [hd3, hd2, hd1, Nat.add_assoc]
      rfl
    have hframe : ∀ x, (∀ i, k ≤ i → i < 32 → x ≠ (R + (c + i)) % 2 ^ 32) → s₃.disk x = s.disk x := fun x hx => by
      rw [hd3, Function.update_of_ne (hx k le_rfl (by omega))]
    have hcopy : area s₃.disk R c k = area s.disk R a k := by
      unfold area
      rw [hd3, Function.update_self]
      rfl
    unfold scan
    rw [seen_readable, seen_readable]
    dsimp only
    split at h5
    · -- the last sector
      rename_i hstop
      obtain ⟨-, rfl⟩ := run_pure_iff.1 h5
      have hlt : (entriesOf (area s.disk R a k)).length < 8 := by
        have h8 := entriesOf_length_le (area s.disk R a k)
        have hne : (entriesOf (area s.disk R a k)).length ≠ 8 := fun he => by
          rw [hstop] at hfull
          exact absurd (hfull.2 he) (by simp)
        omega
      rw [hcopy, if_pos hlt, if_pos hlt]
      exact ⟨hframe, rfl⟩
    · obtain ⟨hframe', hscan⟩ := ih (k := k + 1) (by omega) h5
      have hfull : (entriesOf (area s.disk R a k)).length = 8 := by
        cases r with
        | error => exact absurd rfl hr
        | stop => rename_i hne; exact absurd rfl hne
        | loaded => exact hfull.1 rfl
      -- the rest is written behind this sector, and the source stays as it was
      have hthis : area s'.disk R c k = area s.disk R a k := by
        rw [← hcopy]
        refine hframe' _ fun i h1 h2 he => ?_
        have := addr_inj (by omega) (by omega) he
        omega
      have hsource : ∀ i < 32, area s₃.disk R a i = area s.disk R a i := by
        intro i hi
        refine hframe _ fun l h1 h2 he => ?_
        have := addr_inj (by omega) (by omega) he
        omega
      refine ⟨fun x hx => (hframe' x fun i h1 h2 => hx i (by omega) h2).trans (hframe x hx), ?_⟩
      rw [hthis, if_neg (by omega), if_neg (by omega)]
      rw [hscan, scan_congr fun i h1 h2 => ?_]
      rw [seen_readable, seen_readable, hsource i (by omega)]

/-- Copies with different numbers of entries are made the same. -/
theorem initSwapInfo_copies (hR : E.Readable) (hW : E.WritesAll) (ht : s.core.sectorTable = R + swapTableOffset)
    (hr : s.core.sectorReserveStart = R) (h : (initSwapInfo E).run s = some (true, s'))
    (hne : (decoded R s.disk swapTableOffset).length ≠ (decoded R s.disk swapTableBackupOffset).length) :
    ∀ a, a = swapTableOffset ∨ a = swapTableBackupOffset →
      decoded R s'.disk a = decoded R s.disk (largerCopy (fun _ => false) R s.disk) := by
  have hmo : swapTableOffset + 1000 ≤ maxReservedSector := by decide
  have hbo : swapTableBackupOffset + 1000 ≤ maxReservedSector := by decide
  have hsep : swapTableOffset + 1000 ≤ swapTableBackupOffset := by decide
  -- the copy at `a` is taken, the one at `c` is written
  have copy : ∀ {sync : TableSync} {a c : ℕ} {s₂ : World}, sync ≠ .noNeedSync → a + 1000 ≤ maxReservedSector →
      c + 1000 ≤ maxReservedSector → (c + 1000 ≤ a ∨ a + 1000 ≤ c) → s₂.disk = s.disk →
      (loadTable E sync (R + c + 32) 32 (R + (a + 0)) (R + c)).run s₂ = some (true, s') →
      decoded R s'.disk c = decoded R s.disk a ∧ decoded R s'.disk a = decoded R s.disk a := by
    intro sync a c s₂ hsync ha hc hac hd hrun
    obtain ⟨hframe, hscan⟩ := loadTable_copies hR hW hsync ha hc hac (k := 0) (by omega) hrun
    rw [hd] at hscan hframe
    refine ⟨hscan, scan_congr fun i h1 h2 => ?_⟩
    unfold seen area
    rw [hframe _ fun l h1 h2 he => ?_]
    have := addr_inj (by omega) (by omega) he
    omega
  obtain ⟨s₂, -, hd, hrun⟩ := initSwapInfo_run (hR.faults R) ht hr (m := decoded R s.disk swapTableOffset)
    (b := decoded R s.disk swapTableBackupOffset) rfl rfl
  rw [hrun] at h
  unfold largerCopy
  by_cases hlt : (decoded R s.disk swapTableOffset).length < (decoded R s.disk swapTableBackupOffset).length
  · rw [if_pos hlt] at h
    obtain ⟨h1, h2⟩ := copy (by simp) hbo hmo (Or.inl hsep) hd h
    rw [show counted _ = decoded from rfl, if_pos hlt]
    rintro a (rfl | rfl)
    · exact h1
    · exact h2
  · rw [if_neg hlt, if_pos (by omega)] at h
    obtain ⟨h1, h2⟩ := copy (by simp) hmo hbo (Or.inr hsep) hd h
    rw [show counted _ = decoded from rfl, if_neg hlt]
    rintro a (rfl | rfl)
    · exact h2
    · exact h1

/-- **The two copies after a start.** If all commands succeed and `init_swap_info` returns 0, what can be
decoded of the two copies is the same, and is what was loaded, exactly if before the start the copies were
different in the number of their entries or not different at all. -/
theorem copies_agree_iff (hR : E.Readable) (hW : E.WritesAll) (ht : s.core.sectorTable = R + swapTableOffset)
    (hr : s.core.sectorReserveStart = R) (h : (initSwapInfo E).run s = some (true, s')) :
    (decoded R s'.disk swapTableOffset = decoded R s'.disk swapTableBackupOffset ∧
        s'.mappings = decoded R s'.disk swapTableOffset) ↔
      ((decoded R s.disk swapTableOffset).length ≠ (decoded R s.disk swapTableBackupOffset).length ∨
        decoded R s.disk swapTableOffset = decoded R s.disk swapTableBackupOffset) := by
  obtain ⟨hmap, -, hsame⟩ := initSwapInfo_ends (hR.faults R) ht hr (fun _ _ _ _ _ _ _ tick => hR _ _) h
  by_cases hne : (decoded R s.disk swapTableOffset).length = (decoded R s.disk swapTableBackupOffset).length
  · have hlarger : largerCopy (fun _ => false) R s.disk = swapTableOffset := if_neg hne.not_lt
    rw [hlarger] at hmap
    rw [hsame hne]
    exact ⟨fun h => Or.inr h.1, fun h => ⟨h.resolve_left (not_not.2 hne), hmap⟩⟩
  · have hcopy := initSwapInfo_copies hR hW ht hr h hne
    rw [hcopy _ (Or.inl rfl), hcopy _ (Or.inr rfl)]
    exact ⟨fun _ => Or.inl hne, fun _ => ⟨rfl, hmap⟩⟩

/-- The master has one entry, the backup none: after the start both have it. -/
theorem copies_agree_iff_one :
    ∃ s', (initSwapInfo (Env.refusing fun _ _ => false)).run (World.twoCopies [entryAt 0 0] []) =
      some (true, s') ∧
      decoded 1000 s'.disk swapTableOffset = decoded 1000 s'.disk swapTableBackupOffset ∧
      s'.mappings = decoded 1000 s'.disk swapTableOffset := by
  obtain ⟨hl, hm, hb⟩ := good_twoCopies (m := [entryAt 0 0]) (b := []) (by simp) (by simp)
    (by simp only [List.append_nil, List.mem_singleton, forall_eq]; exact ⟨0, by omega, 0, by omega, rfl⟩)
  have hread : (Env.refusing fun _ _ => false).Readable := fun _ _ => rfl
  obtain ⟨s', h, -, -⟩ := initSwapInfo_scan (hread.faults 1000) (fun _ => rfl) rfl rfl
    (fun i _ _ => packed_twoCopies hl _ i) (fun i _ _ => packed_twoCopies hl _ i) rfl rfl
  refine ⟨s', h, ?_⟩
  exact (copies_agree_iff (R := 1000) hread (fun _ _ _ => rfl) rfl rfl h).2 (Or.inl (by rw [hm, hb]; simp))

/-- One entry in each, for different spare blocks, as a move leaves behind that is cut off between the two
copies: they stay different. -/
theorem copies_disagree :
    ∃ s', (initSwapInfo (Env.refusing fun _ _ => false)).run (World.twoCopies [entryAt 0 1] [entryAt 0 0]) =
      some (true, s') ∧
      decoded 1000 s'.disk swapTableOffset = [entryAt 0 1] ∧
        decoded 1000 s'.disk swapTableBackupOffset = [entryAt 0 0] ∧
      decoded 1000 s'.disk swapTableOffset ≠ decoded 1000 s'.disk swapTableBackupOffset := by
  obtain ⟨hl, hm, hb⟩ := good_twoCopies (m := [entryAt 0 1]) (b := [entryAt 0 0]) (by simp) (by simp) (by
    simp only [List.cons_append, List.nil_append, List.mem_cons, List.not_mem_nil, or_false,
      forall_eq_or_imp, forall_eq]
    exact ⟨⟨0, by omega, 1, by omega, rfl⟩, 0, by omega, 0, by omega, rfl⟩)
  have hread : (Env.refusing fun _ _ => false).Readable := fun _ _ => rfl
  obtain ⟨s', h, -, hd⟩ := initSwapInfo_scan (hread.faults 1000) (fun _ => rfl) rfl rfl
    (fun i _ _ => packed_twoCopies hl _ i) (fun i _ _ => packed_twoCopies hl _ i)
    (m := decoded 1000 (World.twoCopies [entryAt 0 1] [entryAt 0 0]).disk swapTableOffset)
    (b := decoded 1000 (World.twoCopies [entryAt 0 1] [entryAt 0 0]).disk swapTableBackupOffset) rfl rfl
  have hd := hd (by rw [hm, hb]; rfl)
  refine ⟨s', h, by rw [hd, hm], by rw [hd, hb], ?_⟩
  rw [hd, hm, hb]
  intro he
  exact absurd (congrArg SwapTable.index (List.cons.inj he).1) (by decide)

end ScsiSwap
