import ScsiSwap.Proof.Regions

/-!
# What is on the disk for the next start

Which table and which head the next start would take from a disk, if nothing fails (`chosenTable`,
`chosenBitmap`), and when the two agree (`CrashSafe`). The power may go between any two sectors
(`CutDisk`).

* `Persisted R j K disk`: the head is in block `j`, all blocks in `K` are in use there, and no entry
  in either table has a block outside `K`;
* `Persisted.crashSafe`: then the two agree;
* `Sends.cut`: a sequence of commands that keep such a state keeps it wherever the power goes.
-/

namespace ScsiSwap

open StateOption SkipStore

variable {E : Env} {s s' : World} {R j : ℕ} {K K' : ℕ → Prop} {disk disk' : ℕ → Sector}

/-! ## What a start would take -/

/-- The entries of the copy of the table at offset `a`, as far as `calc_swap_info_num` counts them. -/
def decoded (R : ℕ) (disk : ℕ → Sector) (a : ℕ) : List SwapTable := scan 8 (seen (fun _ => false) disk R a) 32 0

/-- The copy `init_swap_info` takes. -/
def chosenTable (R : ℕ) (disk : ℕ → Sector) : List SwapTable :=
  if (decoded R disk swapTableOffset).length < (decoded R disk swapTableBackupOffset).length then
    decoded R disk swapTableBackupOffset
  else decoded R disk swapTableOffset

/-- The bitmap of the head `init_swap_head` takes. In a new head no bit is set. -/
def chosenBitmap (R : ℕ) (disk : ℕ → Sector) : BitVec 1024 :=
  let H := R + swapHeadOffest
  match (List.range maxSwapHeadBlockNum).find? fun i => !decide (Skipped (fun _ => false) disk H i) with
  | none => 0
  | some i => ((found (fun _ => false) disk H i).map SwapHead.bitmap).getD 0

/-- Every mapping the next start would load has its spare block marked in the bitmap it would load. -/
def CrashSafe (R : ℕ) (disk : ℕ → Sector) : Prop :=
  ∀ t ∈ chosenTable R disk, (chosenBitmap R disk).getLsbD t.index.toNat = true

instance (R : ℕ) (disk : ℕ → Sector) : Decidable (CrashSafe R disk) := inferInstanceAs (Decidable (∀ _ ∈ _, _))

/-- `init_swap_info` loads this table, if it can be read and its entries are in order. -/
theorem initSwapInfo_chosen (hE : E.ReadFaults R fun _ => false) (hk : ∀ t, E.kmalloc t = true)
    (ht : s.core.sectorTable = R + swapTableOffset) (hr : s.core.sectorReserveStart = R)
    (hp : ∀ a, a = swapTableOffset ∨ a = swapTableBackupOffset → ∀ i < 32, Packed E s.geom (area s.disk R a i)) :
    ∃ s', (initSwapInfo E).run s = some (true, s') ∧ Loads (fun _ _ => True) (chosenTable R s.disk)
      { s with core := { s.core with infoList := [], infoNum := 0 } } s' := by
  obtain ⟨s', hrun, hl, -⟩ := initSwapInfo_scan hE hk ht hr (fun i hi _ => hp _ (Or.inl rfl) i hi)
    (fun i hi _ => hp _ (Or.inr rfl) i hi) rfl rfl
  exact ⟨s', hrun, hl.mono fun _ _ _ => trivial⟩

/-- What is decoded stands in a valid slot. -/
theorem mem_decoded {a : ℕ} {t : SwapTable} (h : t ∈ decoded R disk a) :
    ∃ k < 32, ∃ l, tableSlots (area disk R a k) l = t ∧ t.valid = true := by
  obtain ⟨k, hk, es, hes, ht⟩ := mem_scan h
  obtain rfl : entriesOf (area disk R a k) = es := Option.some.inj hes
  obtain ⟨l, -, hl⟩ := List.mem_map.1 (List.takeWhile_subset _ ht)
  exact ⟨k, by omega, l, hl, List.all_eq_true.1 List.all_takeWhile t ht⟩

/-! ## The invariant of the disk -/

/-- The valid entries of a table sector are for blocks in `K`. -/
def UsesOnly (K : ℕ → Prop) (b : Sector) : Prop :=
  ∀ l, (tableSlots b l).valid = true → K (tableSlots b l).index.toNat

/-- The head that a start takes is the master in block `j`. The blocks in `K` are in use in it, and no
valid entry of either table is for another block. -/
structure Persisted (R j : ℕ) (K : ℕ → Prop) (disk : ℕ → Sector) : Prop where
  before : ∀ i < j, (headAt disk (R + swapHeadOffest) (128 * i)).state = .invalid
  head : (headAt disk (R + swapHeadOffest) (128 * j)).state = .ok
  bits : ∀ i, K i → (headAt disk (R + swapHeadOffest) (128 * j)).bitmap.getLsbD i = true
  slots : ∀ a, a = swapTableOffset ∨ a = swapTableBackupOffset → ∀ k < 32, UsesOnly K (area disk R a k)

/-- Without failures only a mark makes a search go on. -/
theorem skipped_iff {H i : ℕ} : Skipped (fun _ => false) disk H i ↔
    (headAt disk H (128 * i)).state = .invalid := by
  unfold Skipped
  rw [headStateAt_good rfl, headStateAt_good rfl]
  exact ⟨fun h => h.resolve_right fun h => SwapHead.state_ne_fail _ h.1, Or.inl⟩

/-- The first block without a mark decides. -/
theorem chosenBitmap_eq (hj : j < maxSwapHeadBlockNum)
    (hb : ∀ i < j, (headAt disk (R + swapHeadOffest) (128 * i)).state = .invalid)
    (hs : (headAt disk (R + swapHeadOffest) (128 * j)).state ≠ .invalid) :
    chosenBitmap R disk = ((found (fun _ => false) disk (R + swapHeadOffest) j).map SwapHead.bitmap).getD 0 := by
  have hfind : (List.range maxSwapHeadBlockNum).find?
      (fun i => !decide (Skipped (fun _ => false) disk (R + swapHeadOffest) i)) = some j := by
    refine List.find?_range_eq_some.2 ⟨by simp [skipped_iff, hs], List.mem_range.2 hj, fun i hi => ?_⟩
    simp [skipped_iff, hb i hi]
  unfold chosenBitmap
  dsimp only
  rw [hfind]

theorem Persisted.chosenBitmap (h : Persisted R j K disk) (hj : j < 128) :
    chosenBitmap R disk = (headAt disk (R + swapHeadOffest) (128 * j)).bitmap := by
  rw [chosenBitmap_eq (by simp only [maxSwapHeadBlockNum]; omega) h.before (by rw [h.head]; simp),
    show found (fun _ => false) disk (R + swapHeadOffest) j =
      some (headAt disk (R + swapHeadOffest) (128 * j)) from
      if_pos ((headStateAt_good rfl).trans h.head)]
  rfl

/-- **The next start loads no mapping for a free block.** -/
theorem Persisted.crashSafe (h : Persisted R j K disk) (hj : j < 128) : CrashSafe R disk := by
  intro t ht
  rw [h.chosenBitmap hj]
  obtain ⟨a, ha, ht⟩ : ∃ a, (a = swapTableOffset ∨ a = swapTableBackupOffset) ∧ t ∈ decoded R disk a := by
    unfold chosenTable at ht
    split at ht
    · exact ⟨_, Or.inr rfl, ht⟩
    · exact ⟨_, Or.inl rfl, ht⟩
  obtain ⟨k, hk, l, rfl, hv⟩ := mem_decoded ht
  exact h.bits _ (h.slots a ha k hk l hv)

/-- It depends on the heads up to block `j` and on the two tables. -/
theorem Persisted.congr (h : Persisted R j K disk)
    (hh : ∀ i ≤ j, disk' ((R + (swapHeadOffest + 128 * i)) % 2 ^ 32) =
      disk ((R + (swapHeadOffest + 128 * i)) % 2 ^ 32))
    (ht : ∀ a, a = swapTableOffset ∨ a = swapTableBackupOffset → ∀ k < 32, area disk' R a k = area disk R a k) :
    Persisted R j K disk' := by
  have hhead : ∀ i ≤ j, headAt disk' (R + swapHeadOffest) (128 * i) =
      headAt disk (R + swapHeadOffest) (128 * i) := by
    intro i hi
    unfold headAt
    rw [Nat.add_assoc, hh i hi]
  refine ⟨fun i hi => ?_, ?_, fun i hi => ?_, fun a ha k hk => ?_⟩
  · rw [hhead i hi.le]
    exact h.before i hi
  · rw [hhead j le_rfl]
    exact h.head
  · rw [hhead j le_rfl]
    exact h.bits i hi
  · rw [ht a ha k hk]
    exact h.slots a ha k hk

/-- The sectors of heads and tables. -/
def Records (R x : ℕ) : Prop := Region R .head x ∨ Region R .table x

/-- The sector at offset `o` of the reserve. -/
theorem records_of_offset {o : ℕ} (hR : R + maxReservedSector ≤ 2 ^ 32) (h : Records 0 o) :
    Records R ((R + o) % 2 ^ 32) := by
  unfold Records Region at *
  simp only [maxReservedSector, swapHeadOffest, swapTableOffset, swapDataOffset,
    swapTableBackupOffset, sector8M] at *
  omega

theorem records_head {i : ℕ} (hi : i < 128) :
    Records 0 (swapHeadOffest + 128 * i) ∧ Records 0 (swapHeadOffest + 128 * i + 64) := by
  unfold Records Region
  simp only [swapHeadOffest, swapTableOffset, sector8M]
  omega

theorem records_table {a k : ℕ} (ha : a = swapTableOffset ∨ a = swapTableBackupOffset) (hk : k < 1000) :
    Records 0 (a + k) := by
  unfold Records Region
  simp only [maxReservedSector, swapHeadOffest, swapTableOffset, swapDataOffset,
    swapTableBackupOffset, sector8M] at *
  omega

theorem Persisted.of_records (hR : R + maxReservedSector ≤ 2 ^ 32) (hj : j < 128) (h : Persisted R j K disk)
    (hd : ∀ x, Records R x → disk' x = disk x) : Persisted R j K disk' :=
  h.congr (fun _ hi => hd _ (records_of_offset hR (records_head (by omega)).1))
    fun _ ha _ hk => hd _ (records_of_offset hR (records_table ha (by omega)))

/-- A new head in block `j`. -/
theorem Persisted.putHead (hj : j < 128) (h : Persisted R j K disk) {x : SwapHead} (hx : x.state = .ok)
    (hK : ∀ i, K i → K' i) (hb : ∀ i, K' i → x.bitmap.getLsbD i = true) :
    Persisted R j K' (Function.update disk ((R + (swapHeadOffest + 128 * j)) % 2 ^ 32) (swapHeadEquiv x)) := by
  have hbound : swapHeadOffest + 128 * 128 ≤ maxReservedSector := by decide
  have hself : headAt (Function.update disk ((R + (swapHeadOffest + 128 * j)) % 2 ^ 32) (swapHeadEquiv x))
      (R + swapHeadOffest) (128 * j) = x :=
    headAt_of_eq (by rw [Nat.add_assoc, Function.update_self])
  refine ⟨fun i hi => ?_, by rw [hself]; exact hx, by rw [hself]; exact hb, fun a ha k hk l hv => ?_⟩
  · unfold headAt
    rw [Nat.add_assoc, Function.update_of_ne fun he => absurd (addr_inj (by omega) (by omega) he) (by omega)]
    have := h.before i hi
    unfold headAt at this
    rw [Nat.add_assoc] at this
    exact this
  · have hoff : a + k < maxReservedSector ∧ a + k ≠ swapHeadOffest + 128 * j := by
      simp only [maxReservedSector, swapHeadOffest, swapTableOffset, swapTableBackupOffset, sector8M] at *
      omega
    rw [area_update hoff.1 (by omega), if_neg hoff.2] at hv ⊢
    exact hK _ (h.slots a ha k hk l hv)

/-- A new sector in one of the tables, or behind it. -/
theorem Persisted.putTable (hj : j < 128) (h : Persisted R j K disk) {c m : ℕ} {b : Sector}
    (hc : c = swapTableOffset ∨ c = swapTableBackupOffset) (hm : m < 1000) (hb : UsesOnly K b) :
    Persisted R j K (Function.update disk ((R + (c + m)) % 2 ^ 32) b) := by
  have hoff : c + m < maxReservedSector ∧ ∀ i ≤ j, swapHeadOffest + 128 * i < c + m := by
    simp only [maxReservedSector, swapHeadOffest, swapTableOffset, swapTableBackupOffset, sector8M] at *
    refine ⟨by omega, fun i hi => by omega⟩
  have hhead : ∀ i ≤ j, headAt (Function.update disk ((R + (c + m)) % 2 ^ 32) b) (R + swapHeadOffest) (128 * i) =
      headAt disk (R + swapHeadOffest) (128 * i) := by
    intro i hi
    have hlt := hoff.2 i hi
    unfold headAt
    rw [Nat.add_assoc, Function.update_of_ne fun he => absurd (addr_inj (by omega) hoff.1 he) (by omega)]
  refine ⟨fun i hi => ?_, ?_, fun i hi => ?_, fun a ha k hk => ?_⟩
  · rw [hhead i hi.le]
    exact h.before i hi
  · rw [hhead j le_rfl]
    exact h.head
  · rw [hhead j le_rfl]
    exact h.bits i hi
  · have hk' : a + k < maxReservedSector := by
      simp only [maxReservedSector, swapTableOffset, swapTableBackupOffset, sector8M] at *
      omega
    rw [area_update hk' hoff.1]
    split
    · exact hb
    · exact h.slots a ha k hk

/-! ## Commands, and the power -/

/-- The command is for no sector of a head or a table. -/
def Sent.Spares (R : ℕ) (c : Sent) : Prop := ∀ x, Records R x → ¬ c.Has x

/-- A command that leaves the disk in order, also if only some of its sectors get there. -/
structure Sent.Safe (R : ℕ) (c : Sent) : Prop where
  disk : ∃ j < 128, ∃ K, Persisted R j K c.disk
  whole : c.count = 1 ∨ c.Spares R

/-- The disk after the commands `l`, the last one first. -/
def diskAfter (disk : ℕ → Sector) : List Sent → ℕ → Sector
  | [] => disk
  | c :: _ => c.disk

/-- What the disk holds if the power goes between `s` and `s'`: all commands up to some point have
been executed, and of the next one any of its sectors. -/
def CutDisk (s s' : World) (disk : ℕ → Sector) : Prop :=
  disk = s'.disk ∨ ∃ l c l', s'.sent = l ++ c :: l' ++ s.sent ∧
    ∀ x, disk x = diskAfter s.disk l' x ∨ disk x = c.disk x

theorem Follows.eq_diskAfter {d d' : ℕ → Sector} {l : List Sent} (h : Follows d l d') : d' = diskAfter d l := by
  cases h <;> rfl

theorem Follows.drop {d : ℕ → Sector} {l' : List Sent} :
    ∀ {l : List Sent} {d' : ℕ → Sector}, Follows d (l ++ l') d' →
    Follows d l' (diskAfter d l') := by
  intro l
  induction l with
  | nil =>
    intro d' h
    rw [List.nil_append] at h
    rw [← h.eq_diskAfter]
    exact h
  | cons c l ih => intro d' h; cases h with | cons h _ => exact ih h

/-- **Safe commands can be cut off anywhere.** -/
theorem Sends.cut (hR : R + maxReservedSector ≤ 2 ^ 32) (h : Sends (Sent.Safe R) s s')
    (h0 : ∃ j < 128, ∃ K, Persisted R j K s.disk) {d : ℕ → Sector} (hd : CutDisk s s' d) : CrashSafe R d := by
  obtain ⟨L, hL, hf, hsafe⟩ := h
  have after : ∀ {l : List Sent}, (∀ c ∈ l, c.Safe R) → ∃ j < 128, ∃ K, Persisted R j K (diskAfter s.disk l) := by
    intro l hl
    cases l with
    | nil => exact h0
    | cons c l => exact (hl c List.mem_cons_self).disk
  suffices ∃ j < 128, ∃ K, Persisted R j K d by
    obtain ⟨j, hj, K, hp⟩ := this
    exact hp.crashSafe hj
  rcases hd with rfl | ⟨l, c, l', hs, hx⟩
  · rw [hf.eq_diskAfter]
    exact after hsafe
  · obtain rfl : L = l ++ c :: l' := List.append_cancel_right (hL.symm.trans hs)
    have hl' : ∃ j < 128, ∃ K, Persisted R j K (diskAfter s.disk l') := after fun c hc => hsafe c (by simp [hc])
    have hc := hsafe c (by simp)
    cases hf.drop with
    | @cons _ d₁ _ hf' hrest =>
      rw [hf'.eq_diskAfter] at hrest
      rcases hc.whole with hone | hspare
      · -- one sector: it is there or it is not
        have hd : d = diskAfter s.disk l' ∨ d = c.disk := by
          have hother : ∀ x, x ≠ c.lba → c.disk x = diskAfter s.disk l' x := fun x hx =>
            hrest x fun hh => by unfold Sent.Has at hh; omega
          rcases hx c.lba with h1 | h1
          · refine Or.inl (funext fun x => ?_)
            by_cases hxc : x = c.lba
            · rw [hxc]
              exact h1
            · exact (hx x).elim id fun h2 => h2.trans (hother x hxc)
          · refine Or.inr (funext fun x => ?_)
            by_cases hxc : x = c.lba
            · rw [hxc]
              exact h1
            · exact (hx x).elim (fun h2 => h2.trans (hother x hxc).symm) id
        rcases hd with rfl | rfl
        · exact hl'
        · exact hc.disk
      · obtain ⟨j, hj, K, hp⟩ := hl'
        refine ⟨j, hj, K, hp.of_records hR hj fun x hr => (hx x).elim id fun h2 =>
          h2.trans (hrest x (hspare x hr))⟩

/-- Commands for other sectors are safe. -/
theorem Sends.spares (hR : R + maxReservedSector ≤ 2 ^ 32) (hj : j < 128) (h : Sends (Sent.Spares R) s s')
    (hp : Persisted R j K s.disk) :
    Sends (Sent.Safe R) s s' ∧ ∀ K', Persisted R j K' s.disk → Persisted R j K' s'.disk := by
  obtain ⟨l, hl, hf, hs⟩ := h
  have hkeep : ∀ x, Records R x → s'.disk x = s.disk x ∧ ∀ c ∈ l, c.disk x = s.disk x := fun x hx =>
    hf.keeps fun c hc => hs c hc x hx
  refine ⟨⟨l, hl, hf, fun c hc => ⟨⟨j, hj, K, hp.of_records hR hj fun x hx => (hkeep x hx).2 c hc⟩,
    Or.inr (hs c hc)⟩⟩,
    fun K' hK' => hK'.of_records hR hj fun x hx => (hkeep x hx).1⟩

end ScsiSwap
