import ScsiSwap.Proof.Ownership
import ScsiSwap.Proof.Table

/-!
# What a flush of the table is good for

The writer goes on to the next sector where a write fails; the reader goes on only where a read
fails. `table_rebuilt_iff` says, from the list, the old contents of the two areas and the sectors
that fail, when a load gives back the list that was flushed. A failing sector that can still be
read hides what was written behind it (`table_entry_lost`), unless the other copy is whole and
longer (`table_rebuilt_from_backup`).
-/

namespace ScsiSwap

open StateOption SkipStore

variable {Ef Ei : Env} {s s₁ : World} {R : ℕ} {badW badR : ℕ → Bool}

/-- The table entries of the list, without the record of where each was saved. -/
def World.tables (s : World) : List SwapTable := s.core.infoList.map fun p => (s.heap p).table.strip

/-- Every slot of the sector that looks like an entry is acceptable, as it is after a flush. -/
def Flushed (g : Geom) (b : Sector) : Prop := ∀ j, (tableSlots b j).secSize = 128 → (tableSlots b j).Accepted g

/-- A list that can be flushed, and table areas of the reserve at `R` that an earlier flush left. -/
structure FlushReady (s : World) (R : ℕ) : Prop where
  table : s.core.sectorTable = R + swapTableOffset
  reserve : s.core.sectorReserveStart = R
  len : s.core.infoList.length ≤ maxSwapBlockForUse
  entries : ∀ p ∈ s.core.infoList, (s.heap p).table.Accepted s.geom
  areas : ∀ i < 32, Flushed s.geom (area s.disk R swapTableOffset i) ∧
    Flushed s.geom (area s.disk R swapTableBackupOffset i)

/-! ## The outcome, from what was there -/

/-- The entries in sector `k` of the area at offset `a`, after the list `l` was flushed to it. The
first sector that can be written has the first eight, the second one the next eight. -/
def tableAfter (badW : ℕ → Bool) (disk : ℕ → Sector) (R a : ℕ) (l : List SwapTable) (k : ℕ) : List SwapTable :=
  let old := content (area disk R a k)
  if badW (a + k) then old else (pack 8 l []).getD ((List.range k).countP fun j => !badW (a + j)) old

/-- The entries a load then finds there. -/
def tableFound (badW badR : ℕ → Bool) (disk : ℕ → Sector) (R a : ℕ) (l : List SwapTable) : List SwapTable :=
  scan 8 (fun k => if badR (a + k) then none else some (tableAfter badW disk R a l k)) 32 0

/-- The copy with more entries is the list, or the master copy if both have as many. -/
def Rebuilds (badW badR : ℕ → Bool) (disk : ℕ → Sector) (R : ℕ) (l : List SwapTable) : Prop :=
  let m := tableFound badW badR disk R swapTableOffset l
  let b := tableFound badW badR disk R swapTableBackupOffset l
  (b.length ≤ m.length ∧ m = l) ∨ (m.length < b.length ∧ b = l)

instance (disk : ℕ → Sector) (l : List SwapTable) : Decidable (Rebuilds badW badR disk R l) :=
  inferInstanceAs (Decidable (_ ∨ _))

/-! ## The flush and the load -/

/-- What the loader sees in an area, stripped, is what the flush left there. -/
theorem scan_seen_strip (badR : ℕ → Bool) {a : ℕ} {disk disk' : ℕ → Sector} {l : List SwapTable}
    {bs : List Sector} (hbs : bs.map content = pack 8 l [])
    (ha : ∀ k < 1000, area disk' R a k = writeOut (fun k => badW (a + k)) 32 bs 0 (area disk R a) k) :
    (scan 8 (seen badR disk' R a) 32 0).map SwapTable.strip = tableFound badW badR disk R a l := by
  unfold tableFound
  rw [← scan_map]
  refine scan_congr fun k _ hk => ?_
  have hmap : (content ∘ writeOut (fun k => badW (a + k)) 32 bs 0 (area disk R a)) k = _ :=
    congrFun (writeOut_map content bs 0 (area disk R a)) k
  rw [Function.comp_apply, ← ha k (by omega), hbs, writeOut_apply (by omega) _ _ (Nat.zero_le k),
    ← List.range_eq_range'] at hmap
  unfold seen tableAfter
  cases badR (a + k) with
  | true => rfl
  | false => exact congrArg some hmap

/-- After the flush every sector holds acceptable entries only. -/
theorem flushed_packed {g : Geom} {a : ℕ} {disk disk' : ℕ → Sector} {l : List SwapTable} {bs : List Sector}
    (hd : ∀ t lba, Ei.read t ⟨lba, 128, 5⟩ = .ok) (hl : ∀ t ∈ l, t.Accepted g) (hin : ∀ b ∈ bs, SlotsIn b l)
    (hold : ∀ i < 32, Flushed g (area disk R a i))
    (ha : ∀ k < 1000, area disk' R a k = writeOut (fun k => badW (a + k)) 32 bs 0 (area disk R a) k)
    {i : ℕ} (hi : i < 32) : Packed Ei g (area disk' R a i) := by
  have hfl : Flushed g (area disk' R a i) := by
    rw [ha i (by omega)]
    have hor : writeOut (fun k => badW (a + k)) 32 bs 0 (area disk R a) i = area disk R a i ∨ _ :=
      writeOut_mem bs 0 (area disk R a)
    rcases hor with h | h
    · rw [h]
      exact hold i hi
    · intro j hj
      exact SwapTable.accepted_strip (hl _ (hin _ h j hj))
  intro j hj
  have hacc := hfl j hj
  exact ⟨hacc.crc, hacc.swap, hacc.src, fun t => hd t _⟩

/-- **When a flush and a load give back the list.** The flush of at most 128 acceptable entries
meets failing sectors `badW`, in areas that hold acceptable entries only; the load cannot read the
sectors `badR`, and reads every data block. -/
theorem table_rebuilt_iff (hs : FlushReady s R)
    (hW : Ef.WriteFaults R badW) (hR : Ei.ReadFaults R badR) (hk : ∀ t, Ei.kmalloc t = true)
    (hd : ∀ t lba, Ei.read t ⟨lba, 128, 5⟩ = .ok)
    (h : (flushSwapInfoTable Ef).run s = some (true, s₁)) :
    (∃ s₂, (initSwapInfo Ei).run s₁ = some (true, s₂) ∧ s₂.tables = s.tables) ↔
      Rebuilds badW badR s.disk R s.tables := by
  obtain ⟨ht, hr, hlen, hwf, hareas⟩ := hs
  have hm := fun i hi => (hareas i hi).1
  have hb := fun i hi => (hareas i hi).2
  obtain ⟨hv, bs, hbs, hin, hma, hba⟩ := flushSwapInfoTable_area hW h ht hr (fun p hp => (hwf p hp).valid) hlen
  have hg : s₁.geom = s.geom := congrArg View.geom hv
  have hl : ∀ t ∈ s.tables, t.Accepted s.geom := by
    intro t ht'
    obtain ⟨p, hp, rfl⟩ := List.mem_map.1 ht'
    have hacc := hwf p hp
    exact ⟨hacc.size, (crc_congr (t := (s.heap p).table.strip) (u := (s.heap p).table) rfl).trans hacc.crc,
      hacc.swap,
      hacc.src⟩
  have ht₁ : s₁.core.sectorTable = R + swapTableOffset := (congrArg Geom.table hg).trans ht
  have hr₁ : s₁.core.sectorReserveStart = R := (congrArg Geom.reserve hg).trans hr
  obtain ⟨s₂, h2, hloads, -⟩ := initSwapInfo_scan hR hk ht₁ hr₁
    (fun i hi _ => hg ▸ flushed_packed hd hl hin hm hma hi)
      (fun i hi _ => hg ▸ flushed_packed hd hl hin hb hba hi) rfl rfl
  -- the list after the load
  obtain ⟨ps, hps, -, -, htab, -⟩ := hloads.list
  have hlist : s₂.core.infoList = ps := hps
  have htables : s₂.tables = (ps.map fun p => (s₂.heap p).table).map SwapTable.strip := by
    unfold World.tables
    rw [hlist, List.map_map]
    rfl
  have hm' := scan_seen_strip badR (l := s.tables) hbs hma
  have hb' := scan_seen_strip badR (l := s.tables) hbs hba
  rw [htab] at htables
  rw [apply_ite (List.map SwapTable.strip), hm', hb'] at htables
  have hml := congrArg List.length hm'
  have hbl := congrArg List.length hb'
  rw [List.length_map] at hml hbl
  rw [hml, hbl] at htables
  unfold Rebuilds
  dsimp only
  constructor
  · rintro ⟨s₃, h3, he⟩
    obtain ⟨-, rfl⟩ := run_det h2 h3
    rw [htables] at he
    split at he
    · rename_i hlt
      exact Or.inr ⟨hlt, he⟩
    · rename_i hge
      exact Or.inl ⟨Nat.le_of_not_lt hge, he⟩
  · rintro (⟨hge, he⟩ | ⟨hlt, he⟩)
    · refine ⟨s₂, h2, ?_⟩
      rw [htables, if_neg (Nat.not_lt_of_ge hge)]
      exact he
    · refine ⟨s₂, h2, ?_⟩
      rw [htables, if_pos hlt]
      exact he

/-- One mapping, a blank disk, and a device that cannot write the first sector of the master table.
The master copy of the entry lies behind a sector of zeros and is not found; the backup copy is. -/
theorem table_rebuilt_from_backup :
    let E := Env.refusing fun c _ => c.lba = 1000 + swapTableOffset
    let t : SwapTable := { SwapTable.zero with swapSec := 50152, secSize := 128 }
    let core : Core := { World.blank.core with
      infoNum := 1, infoList := [0], sectorReserveStart := 1000, sectorTable := 33768, sectorData := 50152 }
    let s : World := { World.blank with core := core, heap := fun _ => ⟨{ t with checksum := t.crc }, none⟩ }
    ∃ s₁ s₂, (flushSwapInfoTable E).run s = some (true, s₁) ∧
      (initSwapInfo (.refusing fun _ _ => false)).run s₁ = some (true, s₂) ∧ s₂.tables = s.tables := by
  intro E t core s
  have hready : FlushReady s 1000 := by
    refine ⟨rfl, rfl, by decide, ?_, ?_⟩
    · intro p _
      exact ⟨rfl, crc_congr (t := { t with checksum := t.crc }) (u := t) rfl,
        show 50152 ≤ (50152 : BitVec 64).toNat by decide, show (0 : BitVec 64).toNat ≤ 1000 by decide⟩
    · have hzero : Flushed s.geom zeroSector := by
        intro j hj
        rw [tableSlots_zero] at hj
        exact absurd hj (by decide)
      exact fun i _ => ⟨hzero, hzero⟩
  have hW : E.WriteFaults 1000 fun k => k = swapTableOffset := by
    constructor
    · intro t k buf hk hbad
      have hl : (1000 + k) % 2 ^ 32 = 1000 + k := by
        simp only [maxReservedSector] at hk
        omega
      simp only [E, Env.refusing, hl]
      rw [if_neg (by simpa using hbad)]
    · intro t k buf _ hbad
      obtain rfl : k = swapTableOffset := of_decide_eq_true hbad
      exact ⟨false, rfl⟩
  have hR : (Env.refusing fun _ _ => false).ReadFaults 1000 fun _ => false :=
    ⟨fun _ _ _ _ => rfl, fun _ _ _ h => absurd h (by simp)⟩
  obtain ⟨s₁, h1⟩ := run_of_result (x := flushSwapInfoTable E) (s := s) (a := true) (by decide +kernel)
  have hre : Rebuilds (fun k => k = swapTableOffset) (fun _ => false) s.disk 1000 s.tables := by decide +kernel
  obtain ⟨s₂, h2, htab⟩ := (table_rebuilt_iff hready hW hR (fun _ => rfl) (fun _ _ => rfl) h1).2 hre
  exact ⟨s₁, s₂, h1, h2, htab⟩

/-- **An entry lost.** A device that cannot put two entries into the first sector of either table
area. The flush of the second mapping leaves one entry there, writes both to the next sector and
reports success; the load stops in the first sector. -/
theorem table_entry_lost :
    let E := Env.refusing fun c b => c.lba < 1000 ||
      ((c.lba = 1000 + swapTableOffset || c.lba = 1000 + swapTableBackupOffset) && b 0 80 = 128)
    ∃ s₀ as s s₁ s₂, (scsiSwapInit E 1000).run World.blank = some (true, s₀) ∧
      (session E [Request.fill 0 1, Request.fill 128 2]).run s₀ = some (as, s) ∧
      (flushSwapInfoTable E).run s = some (true, s₁) ∧ (initSwapInfo E).run s₁ = some (true, s₂) ∧
      s.tables.map SwapTable.index = [0, 1] ∧ s₂.tables.map SwapTable.index = [0] := by
  intro E
  have hrun : ((do
      let ok ← scsiSwapInit E 1000
      let _ ← session E [Request.fill 0 1, Request.fill 128 2]
      let s ← get
      let fl ← flushSwapInfoTable E
      let ok' ← initSwapInfo E
      let s₂ ← get
      return decide (ok = true ∧ fl = true ∧ ok' = true ∧ s.tables.map SwapTable.index = [0, 1] ∧
        s₂.tables.map SwapTable.index = [0]) : SwapM Bool).run World.blank).map Prod.fst =
          some true := by decide +kernel
  obtain ⟨s', h⟩ := run_of_result hrun
  obtain ⟨ok, s₀, h1, h⟩ := run_bind_iff.1 h
  obtain ⟨as, s, h2, h⟩ := run_bind_iff.1 h
  rw [run_get_bind] at h
  obtain ⟨fl, s₁, h3, h⟩ := run_bind_iff.1 h
  obtain ⟨ok', s₂, h4, h⟩ := run_bind_iff.1 h
  rw [run_get_bind] at h
  obtain ⟨e, rfl⟩ := run_pure_iff.1 h
  obtain ⟨rfl, rfl, rfl, htab, htab₂⟩ := of_decide_eq_true e.symm
  exact ⟨s₀, as, s, s₁, s', h1, h2, h3, h4, htab, htab₂⟩

end ScsiSwap
