import ScsiSwap.Lib.ShiftRegister
import ScsiSwap.Proof.Image

/-!
# What the checksums catch

`swap_crc32` is a shift register over bytes: the table holds what eight steps make of a byte
(`crc32Table_eq`, `do1_eq`), so it is CRC-32 (`swapCrc32_is_crc32`). A change of at most four consecutive bytes
fits into the register, so it never goes unnoticed (`swapCrc32_burst`), in a head or in an entry
(`checksums_catch_bursts`).
-/

namespace ScsiSwap

open StateOption ByteCodec ShiftRegister

/-! ## `swap_crc32` as a shift register -/

/-- The polynomial of CRC-32, lowest bit first. -/
def crc32Poly : BitVec 32 := 0xedb88320

theorem crc32Table_eq : ∀ b : Byte, crc32Table.getD b.toNat 0 = (step crc32Poly)^[8] (b.setWidth 32) := by
  decide +kernel

/-- One byte. -/
theorem do1_eq (c : BitVec 32) (b : Byte) : do1 c b = feed crc32Poly c b := by
  have hindex : ((c ^^^ b.setWidth 32) &&& 0xff).toNat = ((c ^^^ b.setWidth 32).setWidth 8).toNat := by
    rw [BitVec.toNat_and, BitVec.toNat_setWidth]
    exact Nat.and_two_pow_sub_one_eq_mod _ 8
  have hhigh : (c ^^^ b.setWidth 32) >>> 8 = c >>> 8 := by
    rw [BitVec.ushiftRight_xor_distrib]
    have hb : b.setWidth 32 >>> 8 = 0 := by
      refine BitVec.eq_of_toNat_eq ?_
      have := b.isLt
      rw [BitVec.toNat_ushiftRight, BitVec.toNat_setWidth, Nat.shiftRight_eq_div_pow]
      simp
      omega
    rw [hb]
    exact BitVec.xor_zero
  unfold do1 feed
  rw [hindex, crc32Table_eq, steps_split (c ^^^ b.setWidth 32) 8, hhigh]

/-- The groups of eight make no difference. -/
theorem crcLoop_eq (bs : List Byte) (c : BitVec 32) : crcLoop bs c = bs.foldl (feed crc32Poly) c := by
  fun_induction crcLoop bs c with
  | case1 => simp_all [do1_eq]
  | case2 => simp [funext₂ do1_eq]

/-- CRC-32 bit by bit: every byte is added at the low end of the register and shifted out. -/
def crc32Bitwise (crc : BitVec 32) (buf : List Byte) : BitVec 32 :=
  buf.foldl (feed crc32Poly) (crc ^^^ 0xffffffff) ^^^ 0xffffffff

theorem swapCrc32_eq (c : BitVec 32) (a : List Byte) : swapCrc32 c a = crc32Bitwise c a := by
  unfold swapCrc32 crc32Bitwise
  rw [crcLoop_eq]

/-- A checksum can be continued: the last exclusive or is undone by the next first one. -/
theorem crc32Bitwise_append (c : BitVec 32) (a b : List Byte) :
    crc32Bitwise (crc32Bitwise c a) b = crc32Bitwise c (a ++ b) := by
  unfold crc32Bitwise
  rw [BitVec.xor_assoc, BitVec.xor_self, BitVec.xor_zero, List.foldl_append]

/-- **`swap_crc32` is CRC-32**, over buffers of every length, from every start value and in any
number of pieces. -/
theorem swapCrc32_is_crc32 (c : BitVec 32) (a : List Byte) :
    swapCrc32 c a = crc32Bitwise c a ∧ crcLoop a c = a.foldl do1 c ∧
      ∀ b, swapCrc32 (swapCrc32 c a) b = swapCrc32 c (a ++ b) := by
  refine ⟨swapCrc32_eq c a, ?_, fun b => ?_⟩
  · rw [crcLoop_eq, funext₂ do1_eq]
  · rw [swapCrc32_eq, swapCrc32_eq, swapCrc32_eq, crc32Bitwise_append]

/-- Zeros in place of some bytes make no difference exactly if these bytes alone leave the register as it is. -/
theorem swapCrc32_zeroed_iff (c : BitVec 32) (a bs b : List Byte) :
    swapCrc32 c (a ++ List.replicate bs.length 0 ++ b) = swapCrc32 c (a ++ bs ++ b) ↔
      swapCrc32 0xffffffff bs = 0xffffffff := by
  rw [swapCrc32_eq, swapCrc32_eq, swapCrc32_eq]
  unfold crc32Bitwise
  rw [List.foldl_append, List.foldl_append, List.foldl_append, List.foldl_append, BitVec.xor_left_inj,
    (foldl_feed_injective (show crc32Poly.getLsbD (32 - 1) = true by decide) b).eq_iff, BitVec.xor_self]
  generalize a.foldl (feed crc32Poly) (c ^^^ 0xffffffff) = x
  have hsplit := foldl_feed_xor (p := crc32Poly) x 0 bs
  rw [show x ^^^ 0 = x from BitVec.xor_zero] at hsplit
  rw [hsplit]
  generalize (List.replicate bs.length 0).foldl (feed crc32Poly) x = z
  generalize bs.foldl (feed crc32Poly) 0 = y
  have hz : z ^^^ 0 = z ^^^ y ↔ 0 = y := BitVec.xor_right_inj z
  have hy : y ^^^ 0xffffffff = 0xffffffff ↔ y = 0 := BitVec.xor_left_inj (x := y) (y := 0) 0xffffffff
  rw [show z ^^^ 0 = z from BitVec.xor_zero] at hz
  rw [hz, hy, eq_comm]

theorem swapCrc32_burst {c : BitVec 32} {pre post bs cs : List Byte} (hlen : bs.length = cs.length)
    (h4 : bs.length ≤ 4) (h : swapCrc32 c (pre ++ bs ++ post) = swapCrc32 c (pre ++ cs ++ post)) : bs = cs := by
  rw [swapCrc32_eq, swapCrc32_eq] at h
  exact burst_detected (by decide) hlen (by omega) ((BitVec.xor_left_inj _).1 h)

/-! ## Records -/

/-- A change of at most four consecutive bytes among the first `n`. -/
structure Burst {m : ℕ} (n : ℕ) (b b' : Bytes m) : Prop where
  ne : b ≠ b'
  short : ∃ k, k + 4 ≤ n ∧ ∀ i : Fin m, i.val < k ∨ k + 4 ≤ i.val → b' i = b i

theorem swapCrc32_ofFn {n k : ℕ} {b b' : Bytes n} {c : BitVec 32}
    (hsame : ∀ i : Fin n, i.val < k ∨ k + 4 ≤ i.val → b' i = b i)
    (h : swapCrc32 c (List.ofFn b) = swapCrc32 c (List.ofFn b')) : b = b' := by
  have split : ∀ l : List Byte, l = l.take k ++ (l.drop k).take 4 ++ l.drop (k + 4) := by
    intro l
    rw [List.append_assoc, ← List.drop_drop, List.take_append_drop, List.take_append_drop]
  have hpre : (List.ofFn b').take k = (List.ofFn b).take k := by
    refine List.ext_getElem (by simp) fun i h1 h2 => ?_
    rw [List.getElem_take, List.getElem_take, List.getElem_ofFn, List.getElem_ofFn]
    refine hsame _ (Or.inl ?_)
    simp only [List.length_take] at h1
    show i < k
    omega
  have hpost : (List.ofFn b').drop (k + 4) = (List.ofFn b).drop (k + 4) := by
    refine List.ext_getElem (by simp) fun i h1 h2 => ?_
    rw [List.getElem_drop, List.getElem_drop, List.getElem_ofFn, List.getElem_ofFn]
    exact hsame _ (Or.inr (Nat.le_add_right ..))
  rw [split (List.ofFn b), split (List.ofFn b'), hpre, hpost] at h
  have hmid := swapCrc32_burst (by simp) (by simp) h
  have hlist : List.ofFn b = List.ofFn b' := by rw [split (List.ofFn b), split (List.ofFn b'), hpre, hpost, hmid]
  exact List.ofFn_injective hlist

/-- If the checksum covers the first `n` bytes, the rest is as it was, and the checksum has changed. -/
theorem Burst.checksum {n r : ℕ} {b b' : Bytes (n + r)} (h : Burst n b b') (c : BitVec 32) :
    ((Fin.appendEquiv n r).symm b').2 = ((Fin.appendEquiv n r).symm b).2 ∧
      swapCrc32 c (List.ofFn ((Fin.appendEquiv n r).symm b).1) ≠
        swapCrc32 c (List.ofFn ((Fin.appendEquiv n r).symm b').1) := by
  obtain ⟨k, hk, hsame⟩ := h.short
  have hrest : ((Fin.appendEquiv n r).symm b').2 = ((Fin.appendEquiv n r).symm b).2 := by
    funext i
    exact hsame (Fin.natAdd n i) (Or.inr (by rw [Fin.val_natAdd]; omega))
  refine ⟨hrest, fun he => h.ne ?_⟩
  have hfirst := swapCrc32_ofFn (k := k) (fun i hi => hsame (Fin.castAdd r i) hi) he
  exact (Fin.appendEquiv n r).symm.injective (Prod.ext hfirst hrest.symm)

/-! ## Heads -/

/-- The checksum of the head in a sector, by its bytes. -/
theorem crc_ofSector (b : Sector) :
    (swapHeadEquiv.symm b).crc = swapCrc32 (~~~0) (List.ofFn ((Fin.appendEquiv 508 4).symm b).1) := by
  have hb : Fin.appendEquiv 508 4 ((swapHeadEquiv.symm b).body, leEquiv 4 (swapHeadEquiv.symm b).checksum) = b :=
    swapHeadEquiv.apply_symm_apply b
  unfold SwapHead.crc
  rw [(Fin.appendEquiv 508 4).symm_apply_eq.2 hb.symm]

theorem Burst.head {b b' : Sector} (h : Burst 508 b b') (hok : (swapHeadEquiv.symm b).state = .ok) :
    (swapHeadEquiv.symm b').state ≠ .ok := by
  intro hok'
  obtain ⟨hsum, hne⟩ := Burst.checksum (r := 4) h (~~~0)
  refine hne ?_
  rw [← crc_ofSector, ← crc_ofSector, SwapHead.crc_of_ok hok, SwapHead.crc_of_ok hok']
  exact congrArg (leEquiv 4).symm hsum.symm

/-! ## Entries -/

theorem crc_ofBytes (b : Bytes 64) :
    (swapTableEquiv.symm b).crc = swapCrc32 (~~~0) (List.ofFn ((Fin.appendEquiv 52 12).symm b).1) := by
  have hb : Fin.appendEquiv 52 12 ((swapTableEquiv.symm b).body,
      Fin.appendEquiv 4 8 (leEquiv 4 (swapTableEquiv.symm b).checksum,
        leEquiv 8 (swapTableEquiv.symm b).saveSec)) = b :=
    swapTableEquiv.apply_symm_apply b
  unfold SwapTable.crc
  rw [(Fin.appendEquiv 52 12).symm_apply_eq.2 hb.symm]

theorem crc_of_valid {t : SwapTable} (h : t.valid = true) : t.crc = t.checksum := (of_decide_eq_true h).2

theorem Burst.entry {b b' : Bytes 64} (h : Burst 52 b b') (hv : (swapTableEquiv.symm b).valid = true) :
    (swapTableEquiv.symm b').valid = false := by
  rw [← Bool.not_eq_true]
  intro hv'
  obtain ⟨hsum, hne⟩ := Burst.checksum (r := 12) h (~~~0)
  refine hne ?_
  rw [← crc_ofBytes, ← crc_ofBytes, crc_of_valid hv, crc_of_valid hv']
  exact congrArg (fun x : Bytes 12 => (leEquiv 4).symm ((Fin.appendEquiv 4 8).symm x).1) hsum.symm

/-- What is counted is valid. -/
theorem valid_of_counted {b : Sector} {j : Fin 8} (h : j.val < validEntries b) :
    (tableSlots b j).valid = true := by
  have hmem : j ∈ (List.finRange 8).takeWhile fun j => (tableSlots b j).valid := by
    unfold validEntries at h
    have hget : ((List.finRange 8).takeWhile fun j => (tableSlots b j).valid)[j.val] = j := by
      rw [(List.takeWhile_prefix _).getElem h]
      exact Fin.ext (by simp)
    rw [← hget]
    exact List.getElem_mem h
  exact List.all_eq_true.1 List.all_takeWhile j hmem

/-- The loader enters no invalid entry in the list. -/
theorem loadSlot_invalid {E : Env} {s s' : World} {t t' : SwapTable} {r : SlotRes} (hv : t.valid = false)
    (h : (loadSlot E t).run s = some ((r, t'), s')) : r ≠ .loaded ∧ s'.core.infoList = s.core.infoList := by
  unfold loadSlot at h
  obtain ⟨ok, s₁, h1, h2⟩ := run_bind_iff.1 h
  have hlist : s₁.core.infoList = s.core.infoList := by rw [(kmalloc_calm h1).core]
  cases ok with
  | false =>
    obtain ⟨e, rfl⟩ := run_pure_iff.1 h2
    obtain ⟨rfl, -⟩ := Prod.mk.inj e
    exact ⟨by simp, hlist⟩
  | true =>
    rw [if_pos rfl, run_get_bind, run_set_bind] at h2
    split at h2
    · obtain ⟨e, rfl⟩ := run_pure_iff.1 h2
      obtain ⟨rfl, -⟩ := Prod.mk.inj e
      exact ⟨by simp, hlist⟩
    rename_i hsize
    split at h2
    · obtain ⟨e, rfl⟩ := run_pure_iff.1 h2
      obtain ⟨rfl, -⟩ := Prod.mk.inj e
      exact ⟨by simp, hlist⟩
    split at h2
    · obtain ⟨e, rfl⟩ := run_pure_iff.1 h2
      obtain ⟨rfl, -⟩ := Prod.mk.inj e
      exact ⟨by simp, hlist⟩
    rename_i hcrc
    have hvalid : t.valid = true := decide_eq_true ⟨not_not.1 hsize, not_not.1 hcrc⟩
    exact absurd (hvalid.symm.trans hv) (by simp)

/-- What is in the list after a load is valid. -/
theorem initSwapInfo_valid {E : Env} {s s' : World} {g₀ : Geom} {R h p : ℕ} {ok : Bool}
    (hg : s.geom = bootGeom g₀ R h)
    (hrun : (initSwapInfo E).run s = some (ok, s')) (hp : p ∈ s'.core.infoList) :
    (s'.heap p).table.valid = true := by
  obtain ⟨a, ts, -, -, hl, hf, -⟩ :=
    initSwapInfo_rule (loading_rule (A := fun _ => True) s.disk s fun _ _ => trivial) hrun
    fun a ha => ⟨hg, ha, .refl _, fun k _ => Or.inl rfl⟩
  rw [← SwapTable.strip_valid]
  exact (hf.accepted _ (hl.table hp)).valid

/-- **Checksums catch every short burst.** If up to four consecutive bytes change among those that the checksum
covers, a head that was valid is not valid any more, and an entry that was counted is not counted and
not loaded. -/
theorem checksums_catch_bursts :
    (∀ (E E' : Env) (s s₁ t t₁ : World) (x y : ℕ) (old old' h h' : SwapHead) (st : HeadState),
      (swapGetHeadState E x old).run s = some ((.ok, h), s₁) →
      Burst 508 (s.disk (x % 2 ^ 32)) (t.disk (y % 2 ^ 32)) →
        (swapGetHeadState E' y old').run t = some ((st, h'), t₁) → st ≠ .ok) ∧
    ∀ (b b' : Sector) (j : Fin 8), j.val < validEntries b →
    Burst 52 (chunkEquiv 8 64 b j) (chunkEquiv 8 64 b' j) →
      validEntries b' ≤ j ∧
      (∀ (E : Env) (s s' : World) (r : SlotRes) (t : SwapTable),
        (loadSlot E (tableSlots b' j)).run s = some ((r, t), s') → r ≠ .loaded ∧
          s'.core.infoList = s.core.infoList) ∧
      ∀ (E : Env) (g₀ : Geom) (R h : ℕ) (s s' : World) (ok : Bool), s.geom = bootGeom g₀ R h →
        (initSwapInfo E).run s = some (ok, s') → ∀ p ∈ s'.core.infoList, (s'.heap p).table ≠ tableSlots b' j := by
  refine ⟨?_, fun b b' j hj hburst => ?_⟩
  · rintro E E' s s₁ t t₁ x y old old' h h' st hrun hburst hrun' rfl
    obtain ⟨rfl, hok⟩ := swapGetHeadState_found hrun
    obtain ⟨rfl, hok'⟩ := swapGetHeadState_found hrun'
    exact hburst.head hok hok'
  · have hv : (tableSlots b' j).valid = false := hburst.entry (valid_of_counted hj)
    refine ⟨?_, fun E s s' r t hrun => loadSlot_invalid hv hrun, fun E g₀ R h s s' ok hg hrun p hp he => ?_⟩
    · by_contra hlt
      exact absurd ((valid_of_counted (by omega)).symm.trans hv) (by simp)
    · exact absurd ((initSwapInfo_valid hg hrun hp).symm.trans (he ▸ hv)) (by simp)

/-- A head with one byte of its reserved part changed, and an entry with another index. -/
theorem checksums_catch_bursts_one :
    let E := Env.refusing fun _ _ => false
    let h : SwapHead := { SwapHead.zero with
      headString := strncpy (fun _ => 0) swapHeadString 16, status := strncpy (fun _ => 0) strValid 5 }
    let t : SwapTable := { SwapTable.zero with secSize := 128, swapSec := 50152, checksum := 1335841535 }
    (∃ s₁ st h' t₁, (swapGetHeadState E 0 SwapHead.zero).run
      { World.blank with disk := fun _ => swapHeadEquiv h.seal } =
        some ((.ok, h.seal), s₁) ∧
      (swapGetHeadState E 0 SwapHead.zero).run { World.blank with
        disk := fun _ => Function.update (swapHeadEquiv h.seal) 507 1 } = some ((st, h'), t₁) ∧ st ≠ .ok) ∧
    validEntries (putTable zeroSector 0 t) = 1 ∧
      validEntries (putTable zeroSector 0 { t with index := 1 }) = 0 := by
  intro E h t
  have hE : E.ReadFaults 0 fun _ => false := ⟨fun _ _ _ _ => rfl, fun _ _ _ hb => absurd hb (by simp)⟩
  have hnamed : h.Named := ⟨hasPrefix_strncpy _ _ (by decide), hasPrefix_strncpy _ _ (by decide)⟩
  -- the first sector is a valid head
  have good : ∃ s₁, (swapGetHeadState E 0 SwapHead.zero).run
      { World.blank with disk := fun _ => swapHeadEquiv h.seal } =
      some ((.ok, h.seal), s₁) := by
    obtain ⟨h', s₁, hrun, -, -, hh⟩ := swapGetHeadState_run (k := 0) hE (by decide) SwapHead.zero
      { World.blank with disk := fun _ => swapHeadEquiv h.seal }
    have hat : headAt (fun _ => swapHeadEquiv h.seal) 0 0 = h.seal := headAt_of_eq rfl
    rw [headStateAt_good rfl, hh rfl] at hrun
    exact ⟨s₁, by rw [hrun, hat, hnamed.seal_ok]⟩
  obtain ⟨s₁, h1⟩ := good
  obtain ⟨h', t₁, h2, -, -, -⟩ := swapGetHeadState_run (k := 0) hE (by decide) SwapHead.zero
    { World.blank with disk := fun _ => Function.update (swapHeadEquiv h.seal) 507 1 }
  obtain ⟨hheads, hentries⟩ := checksums_catch_bursts
  have hburst : Burst 508 (swapHeadEquiv h.seal) (Function.update (swapHeadEquiv h.seal) 507 1) := by
    refine ⟨fun he => ?_, 504, by decide, fun i hi => Function.update_of_ne (fun he => ?_) _ _⟩
    · have hbyte : swapHeadEquiv h.seal 507 = 1 := by
        rw [he]
        exact Function.update_self ..
      exact absurd (hbyte.symm.trans (show swapHeadEquiv h.seal 507 = 0 from rfl)) (by decide)
    · rw [he] at hi
      revert hi
      decide
  have hcount : validEntries (putTable zeroSector 0 t) = 1 := by decide +kernel
  refine ⟨⟨s₁, _, h', t₁, h1, h2, hheads E E _ _ _ _ 0 0 _ _ _ _ _ h1 hburst h2⟩, hcount, ?_⟩
  refine Nat.le_zero.1 (hentries (putTable zeroSector 0 t) _ 0 (by rw [hcount]; decide) ?_).1
  exact ⟨by decide +kernel, 24, by decide, by decide +kernel⟩

end ScsiSwap
