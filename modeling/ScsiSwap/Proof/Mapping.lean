import ScsiSwap.Proof.Device

/-!
# Spare blocks, and the making of a mapping

* `swapAllocNewBlock_alloc`: the allocator writes only to free spare blocks, never clears a
  bit, and returns a block that was free;
* `swapCreate'_spec`, `swapCreate_spec`: a creation ends in a mapping that is not in the list
  yet, or in nothing that matters (`Keep`).
-/

namespace ScsiSwap

open StateOption ByteCodec

variable {E : Env} {s s' : World} {A : ℕ → Prop}

/-! ## The bitmap -/

theorem bitmapSet_getLsbD (b : BitVec 1024) (n i : ℕ) (hn : n < 1024) :
    (bitmapSet b n).getLsbD i = (b.getLsbD i || decide (n = i)) := by
  simp [bitmapSet, BitVec.getLsbD_twoPow, hn]

theorem bitmapClear_getLsbD (b : BitVec 1024) (n i : ℕ) :
    (bitmapClear b n).getLsbD i = (b.getLsbD i && !decide (n = i)) := by
  by_cases hi : i < 1024
  · simp [bitmapClear, hi, eq_comm]
  · rw [BitVec.getLsbD_of_ge _ _ (Nat.le_of_not_lt hi), BitVec.getLsbD_of_ge b _ (Nat.le_of_not_lt hi)]
    rfl

theorem firstZeroBit_some {b : BitVec 1024} {i : ℕ} (h : firstZeroBit b = some i) :
    i < 1024 ∧ b.getLsbD i = false := by
  unfold firstZeroBit at h
  have h1 := List.mem_of_find?_eq_some h
  have h2 := List.find?_some h
  exact ⟨List.mem_range.1 h1, by simpa using h2⟩

/-- `b'` has every bit that `b` has. -/
def BitsLe (b b' : BitVec 1024) : Prop := ∀ i, b.getLsbD i = true → b'.getLsbD i = true

theorem BitsLe.refl (b : BitVec 1024) : BitsLe b b := fun _ h => h

theorem BitsLe.trans {a b c : BitVec 1024} (h1 : BitsLe a b) (h2 : BitsLe b c) : BitsLe a c :=
  fun i h => h2 i (h1 i h)

theorem BitsLe.set (b : BitVec 1024) {n : ℕ} (hn : n < 1024) : BitsLe b (bitmapSet b n) := by
  intro i hi
  rw [bitmapSet_getLsbD b n i hn, hi, Bool.true_or]

/-- Clearing a bit that was clear at the start gives nothing away. -/
theorem BitsLe.clear {b c : BitVec 1024} (h : BitsLe b c) {n : ℕ}
    (hb : b.getLsbD n = false) : BitsLe b (bitmapClear c n) := by
  intro i hi
  have hne : n ≠ i := by rintro rfl; rw [hb] at hi; exact absurd hi (by simp)
  rw [bitmapClear_getLsbD c n i, h i hi]
  simp [hne]

/-! ## The allocator -/

/-- The spare blocks whose bit is clear. -/
def FreeArea (v : View) (x : ℕ) : Prop :=
  ∃ i < 1024, v.bitmap.getLsbD i = false ∧ cmdRange (v.geom.data + 128 * i) 128 x

theorem FreeArea.reserved {v : View} (hg : v.geom.Ok) {x : ℕ} (h : FreeArea v x) : Reserved v.geom x := by
  have h1 := hg.size
  have h2 := hg.data
  obtain ⟨i, hi, -, hx⟩ := h
  unfold Reserved
  unfold cmdRange at hx
  simp only [maxReservedSector, swapDataOffset, sector8M] at *
  omega

theorem FreeArea.mono {v w : View} {x : ℕ} (h : FreeArea w x) (hg : w.geom = v.geom)
    (hb : BitsLe v.bitmap w.bitmap) : FreeArea v x := by
  obtain ⟨i, hi, hbit, hx⟩ := h
  refine ⟨i, hi, ?_, hg ▸ hx⟩
  by_contra hne
  have := hb i (by simpa using hne)
  rw [hbit] at this
  exact absurd this (by simp)

/-- What an allocation that left the bitmap `b` may have done. -/
structure Alloc (s s' : World) (a : Option ℕ) (b : BitVec 1024) : Prop where
  upd : Upd (FreeArea s.view) (s.view.setBitmap b) s s'
  bits : BitsLe s.view.bitmap b
  fresh : ∀ i, a = some i → i < 1024 ∧ s.view.bitmap.getLsbD i = false ∧ b.getLsbD i = true

theorem swapCheckBlock_dev {secStart : ℕ} {a : Bool}
    (h : (swapCheckBlock E secStart).run s = some (a, s')) : Dev (cmdRange secStart 128) s s' := by
  unfold swapCheckBlock at h
  obtain ⟨k, s₁, h1, h2⟩ := run_bind_iff.1 h
  have hd := kmalloc_dev (A := cmdRange secStart 128) h1
  cases k with
  | true => exact hd.dev (hdWriteSector_dev h2)
  | false =>
    obtain ⟨-, rfl⟩ := run_pure_iff.1 h2
    exact hd

theorem swapAllocLoop_alloc : ∀ {left index : ℕ} {s s' : World} {a : Option ℕ},
    (swapAllocLoop E left index).run s = some (a, s') → index < 1024 →
      s.view.bitmap.getLsbD index = false → ∃ b, Alloc s s' a b := by
  intro left
  induction left with
  | zero =>
    intro index s s' a h hi hf
    unfold swapAllocLoop at h
    rw [run_get_bind] at h
    obtain ⟨ok, s₁, h1, h2⟩ := run_bind_iff.1 h
    have hd := (swapCheckBlock_dev h1).mono (B := FreeArea s.view) fun x hx => ⟨index, hi, hf, hx⟩
    cases ok with
    | true =>
      rw [if_pos rfl, run_modify_bind] at h2
      obtain ⟨rfl, rfl⟩ := run_pure_iff.1 h2
      have hb : s₁.core.head.bitmap = s.view.bitmap := hd.bitmap
      refine ⟨bitmapSet s.view.bitmap index, ?_, BitsLe.set _ hi, ?_⟩
      · rw [hb]; exact hd.setBitmap _
      · rintro i ⟨⟩
        exact ⟨hi, hf, by rw [bitmapSet_getLsbD _ _ _ hi]; simp⟩
    | false =>
      rw [if_neg (by simp)] at h2
      obtain ⟨u, s₂, h3, h4⟩ := run_bind_iff.1 h2
      obtain ⟨rfl, rfl⟩ := run_pure_iff.1 h4
      exact ⟨s.view.bitmap, hd.dev (deviceDeadInc_dev h3), BitsLe.refl _, by simp⟩
  | succ left ih =>
    intro index s s' a h hi hf
    unfold swapAllocLoop at h
    rw [run_get_bind] at h
    obtain ⟨ok, s₁, h1, h2⟩ := run_bind_iff.1 h
    have hd := (swapCheckBlock_dev h1).mono (B := FreeArea s.view) fun x hx => ⟨index, hi, hf, hx⟩
    have hb : s₁.core.head.bitmap = s.view.bitmap := hd.bitmap
    have hset : Upd (FreeArea s.view) (s.view.setBitmap (bitmapSet s.view.bitmap index)) s
        (s₁.setBitmap (bitmapSet s.view.bitmap index)) := hd.setBitmap _
    cases ok with
    | true =>
      rw [if_pos rfl, run_modify_bind, hb] at h2
      obtain ⟨rfl, rfl⟩ := run_pure_iff.1 h2
      refine ⟨bitmapSet s.view.bitmap index, hset, BitsLe.set _ hi, ?_⟩
      rintro i ⟨⟩
      exact ⟨hi, hf, by rw [bitmapSet_getLsbD _ _ _ hi]; simp⟩
    | false =>
      -- the block is bad: its bit stays set, and the next free block is tried
      rw [if_neg (by simp), run_modify_bind, hb, run_get_bind] at h2
      have hle := BitsLe.set s.view.bitmap hi
      split at h2
      · obtain ⟨rfl, rfl⟩ := run_pure_iff.1 h2
        exact ⟨_, hset, hle, by simp⟩
      · rename_i j hj
        obtain ⟨hj1, hj2⟩ := firstZeroBit_some hj
        obtain ⟨b, hal⟩ := ih h2 hj1 hj2
        have hv := hset.view
        have hbits := hal.bits
        have hupd := hal.upd
        rw [hv] at hupd hbits
        simp only [View.setBitmap_bitmap, View.setBitmap_setBitmap] at hupd hbits
        refine ⟨b, hset.trans (hupd.mono fun x hx => hx.mono rfl hle), hle.trans hbits, ?_⟩
        intro i ha
        obtain ⟨f1, f2, f3⟩ := hal.fresh i ha
        refine ⟨f1, ?_, f3⟩
        rw [hv, View.setBitmap_bitmap, bitmapSet_getLsbD _ _ _ hi] at f2
        simpa using (Bool.or_eq_false_iff.1 f2).1

/-- **The allocator touches free blocks only** and hands out one of them. -/
theorem swapAllocNewBlock_alloc {a : Option ℕ} (h : (swapAllocNewBlock E).run s = some (a, s')) :
    ∃ b, Alloc s s' a b := by
  unfold swapAllocNewBlock at h
  rw [run_get_bind] at h
  split at h
  · obtain ⟨rfl, rfl⟩ := run_pure_iff.1 h
    exact ⟨s'.view.bitmap, Dev.refl _, BitsLe.refl _, by simp⟩
  · rename_i i hi
    obtain ⟨h1, h2⟩ := firstZeroBit_some hi
    exact swapAllocLoop_alloc h h1 h2

/-! ## `_swap_create` -/

/-- The table entry of a new mapping. -/
def entryFor (sectorData src index : ℕ) : SwapTable :=
  ({ SwapTable.zero with srcSec := .ofNat 64 src, secSize := 128 } : SwapTable).assign sectorData index

/-- The commands that copy a sector into a new mapping succeed: reads without retries that
start in its block, at or before it. -/
def CopyReads (E : Env) (src x : ℕ) : Prop :=
  ∀ t (c : Cmd), c.retries = 0 → src ≤ c.lba → c.lba ≤ x → (E.read t c).isOk = true

theorem fillBuf_of_lt {buf : ℕ → Sector} {off k : ℕ} {new : ℕ → Option Sector} (h : k < off) :
    fillBuf buf off new k = buf k := if_neg (Nat.not_le.2 h)

theorem fillBuf_of_le {buf : ℕ → Sector} {off k : ℕ} {new : ℕ → Option Sector} (h : off ≤ k) :
    fillBuf buf off new k = (new (k - off)).getD (buf k) := if_pos h

@[simp] theorem blockBuf_val (d : Block) (k : Fin 128) : blockBuf d k = d k := dif_pos k.isLt

theorem hdReadSector_ok {r sector n : ℕ} {a : Bool × (ℕ → Option Sector)}
    (h : (hdReadSector E r sector n).run s = some (a, s'))
    (hok : a.1 = true ∨ (E.read s.tick ⟨sector % 2 ^ 32, n % 2 ^ 16, r⟩).isOk = true) :
    ∀ k, k < n % 2 ^ 16 → a.2 k = some (s.disk (sector % 2 ^ 32 + k)) := by
  rw [hdReadSector_run] at h
  obtain ⟨rfl, -⟩ := Prod.mk.inj (Option.some.inj h)
  intro k hk
  rw [or_self] at hok
  cases hio : E.read s.tick ⟨sector % 2 ^ 32, n % 2 ^ 16, r⟩ with
  | ok => simp only [hk, if_true]
  | fail junk nc => rw [hio] at hok; exact absurd hok (by simp [IoResult.isOk])

theorem hdReadSector_none {r sector n : ℕ} {a : Bool × (ℕ → Option Sector)}
    (h : (hdReadSector E r sector n).run s = some (a, s')) : ∀ k, n % 2 ^ 16 ≤ k → a.2 k = none := by
  rw [hdReadSector_run] at h
  obtain ⟨rfl, -⟩ := Prod.mk.inj (Option.some.inj h)
  intro k hk
  cases E.read s.tick ⟨sector % 2 ^ 32, n % 2 ^ 16, r⟩ with
  | ok => exact if_neg (Nat.not_lt.2 hk)
  | fail junk nc => exact if_neg (Nat.not_lt.2 hk)

theorem copyAround_spec {p sector off len : ℕ} {u : PUnit} {d : Block}
    (h : (copyAround E p sector off len).run s = some (u, s')) (hd : (s.heap p).data = some d) :
    ∃ d' : Block, Upd A (s.view.setInfo p { s.view.info p with data := some d' }) s s' ∧
      (∀ k : Fin 128, ¬ (off ≤ k.val ∧ k.val < off + len) → d' k = d k) ∧
      ∀ k : Fin 128, off ≤ k.val → k.val < off + len → len < 2 ^ 16 → sector < 2 ^ 32 →
        (E.read s.tick ⟨sector, len, 0⟩).isOk = true → d' k = s.disk (sector + (k - off)) := by
  unfold copyAround at h
  split at h
  · obtain ⟨a, s₁, h1, h2⟩ := run_bind_iff.1 h
    have hdev := hdReadSector_dev (A := A) h1
    have hd1 : (s₁.heap p).data = some d := by rw [hdev.data p]; exact hd
    have hi1 : (s₁.heap p).strip = s.view.info p := hdev.info p
    obtain rfl := run_modify_iff.1 h2
    have hmod : len % 2 ^ 16 ≤ len := Nat.mod_le _ _
    refine ⟨fun k => fillBuf (blockBuf d) off a.2 k, ?_, ?_, ?_⟩
    · have := hdev.setInfo p { s₁.heap p with data := some fun k : Fin 128 => fillBuf (blockBuf d) off a.2 k }
      rw [hd1]
      refine ⟨?_, this.disk, this.dead⟩
      rw [Option.map_some, this.view]
      unfold View.setInfo
      rw [← hi1]; rfl
    · intro k hk
      dsimp only
      by_cases hle : off ≤ k.val
      · rw [fillBuf_of_le hle, hdReadSector_none h1 _ (by omega), Option.getD_none, blockBuf_val]
      · rw [fillBuf_of_lt (by omega), blockBuf_val]
    · intro k hle hlt hlen hsec hok
      rw [← Nat.mod_eq_of_lt hlen, ← Nat.mod_eq_of_lt hsec] at hok
      have := hdReadSector_ok h1 (Or.inr hok) (k - off) (by omega)
      dsimp only
      rw [fillBuf_of_le hle, this, Nat.mod_eq_of_lt hsec, Option.getD_some]
  · rename_i hl
    obtain ⟨-, rfl⟩ := run_pure_iff.1 h
    refine ⟨d, ?_, fun _ _ => rfl, fun k h1 h2 => by omega⟩
    refine Upd.ofMem ?_ rfl rfl
    rw [View.setInfo_eq_self]
    rw [← hd]; rfl

/-- What `_swap_create` made of the entry at `p`, for the block of sectors from `src` on. -/
structure Created (s s' : World) (p src : ℕ) (b : BitVec 1024) (index : ℕ) (d : Block) : Prop where
  upd : Upd (FreeArea s.view)
    ((s.view.setBitmap b).setInfo p ⟨entryFor s.view.geom.data src index, some d⟩) s s'
  bits : BitsLe s.view.bitmap b
  fresh : index < 1024 ∧ s.view.bitmap.getLsbD index = false ∧ b.getLsbD index = true

/-- The data of a new mapping, of which `len` sectors from `off` on were requested: copies of
the disk around them, as far as they could be read, and zeros. -/
structure Copies (E : Env) (s : World) (src off len : ℕ) (d : Block) : Prop where
  copied : ∀ k : Fin 128, k.val < off ∨ off + len ≤ k.val → CopyReads E src (src + k) →
    ¬ FreeArea s.view (src + k) → d k = s.disk (src + k)
  zero : ∀ k : Fin 128, off ≤ k.val → k.val < off + len → d k = zeroSector

theorem crc_congr {t u : SwapTable} (h : t.body = u.body) : t.crc = u.crc := by
  unfold SwapTable.crc
  rw [h]

theorem assign_saveSec (t : SwapTable) (x : BitVec 64) (sectorData index : ℕ) :
    ({ t with saveSec := x } : SwapTable).assign sectorData index =
      { t.assign sectorData index with saveSec := x } := by
  have hcrc : SwapTable.crc { t with
      index := .ofNat 32 index, swapSec := .ofNat 64 (sectorData + 128 * index), saveSec := x } =
    SwapTable.crc { t with
      index := .ofNat 32 index, swapSec := .ofNat 64 (sectorData + 128 * index) } := crc_congr rfl
  unfold SwapTable.assign
  dsimp only
  rw [hcrc]

theorem assign_strip (t : SwapTable) (x : BitVec 64) (sectorData index : ℕ) (d : Option Block) :
    SwapInfo.strip ⟨({ t with saveSec := x } : SwapTable).assign sectorData index, d⟩ =
      SwapInfo.strip ⟨t.assign sectorData index, d⟩ := by
  rw [assign_saveSec]
  rfl

theorem s32_ofNat {n : ℕ} (h : n < 2 ^ 31) : s32 (n : ℤ) = n := by unfold s32; omega

theorem swapCreate'_spec {p src off : ℕ} {len : ℤ} {a : Bool}
    (h : (swapCreate' E p src off len).run s = some (a, s'))
    (hp : s.view.info p = ⟨SwapTable.zero, some fun _ => zeroSector⟩) :
    (a = false ∧ ∃ b, Alloc s s' none b) ∨
      (a = true ∧ ∃ b index d, Created s s' p src b index d ∧
        ∀ n : ℕ, len = n → off + n ≤ 128 → src + 128 ≤ 2 ^ 32 → Copies E s src off n d) := by
  unfold swapCreate' at h
  obtain ⟨a₁, s₁, h1, h2⟩ := run_bind_iff.1 h
  obtain ⟨b, hal⟩ := swapAllocNewBlock_alloc h1
  cases a₁ with
  | none =>
    obtain ⟨rfl, rfl⟩ := run_pure_iff.1 h2
    exact Or.inl ⟨rfl, b, hal⟩
  | some index =>
    dsimp only at h2
    rw [Int.toNat_natCast] at h2
    obtain ⟨u₂, s₂, h3, h4⟩ := run_bind_iff.1 h2
    obtain ⟨u₃, s₃, h5, h6⟩ := run_bind_iff.1 h4
    rw [run_modify_bind] at h6
    obtain ⟨rfl, rfl⟩ := run_pure_iff.1 h6
    have hp1 : (s₁.heap p).strip = ⟨SwapTable.zero, some fun _ => zeroSector⟩ := by
      rw [hal.upd.info p]; exact hp
    -- the sectors before the requested ones, then those after them
    obtain ⟨d₁, u1, f1, c1⟩ := copyAround_spec (A := FreeArea s.view) h3
      (congrArg SwapInfo.data hp1 : _ = some fun _ => zeroSector)
    have hd2 : (s₂.heap p).data = some d₁ := by rw [u1.data p]; simp
    obtain ⟨d₂, u2, f2, c2⟩ := copyAround_spec (A := FreeArea s.view) h5 hd2
    have hv2 : s₂.view.info p = SwapInfo.strip ⟨(s₁.view.info p).table, some d₁⟩ := by
      rw [u1.view, View.setInfo_info_self]
    have hv3 : (s₃.heap p).strip = ⟨SwapTable.zero, some d₂⟩ := by
      rw [u2.info p, View.setInfo_info_self, hv2, view_info, hp1]; rfl
    refine Or.inr ⟨rfl, b, index, d₂, ⟨?_, hal.bits, hal.fresh index rfl⟩, ?_⟩
    · have hall := (hal.upd.trans u1).trans u2
      have hg : s₃.core.sectorData = s.view.geom.data := by
        rw [show s₃.core.sectorData = s₃.view.geom.data from rfl, hall.view]
        simp only [View.setInfo_geom]
        rw [u1.view, hal.upd.view]; rfl
      have hfin := hall.setInfo p ⟨({ (s₃.heap p).table with srcSec := .ofNat 64 src, secSize := 128 } :
        SwapTable).assign s₃.core.sectorData index, (s₃.heap p).data⟩
      refine ⟨?_, hfin.disk, hfin.dead⟩
      rw [hfin.view, View.setInfo_setInfo, u1.view, View.setInfo_setInfo, hal.upd.view]
      refine View.setInfo_congr ?_
      rw [hg]
      have ht : { (s₃.heap p).table with saveSec := 0 } = SwapTable.zero := congrArg SwapInfo.table hv3
      have hdd : (s₃.heap p).data = some d₂ := congrArg SwapInfo.data hv3
      rw [← assign_strip { (s₃.heap p).table with srcSec := .ofNat 64 src, secSize := 128 } 0, hdd]
      unfold entryFor
      rw [← ht]
    · rintro n rfl hlen hsrc
      have e1 : s32 ((off : ℤ) + n) = (off : ℤ) + n := by
        have := s32_ofNat (n := off + n) (by omega)
        simpa using this
      have e2 : ((off : ℤ) + n).toNat = off + n := by omega
      have e3 : (128 - ((off : ℤ) + n)).toNat = 128 - (off + n) := by omega
      rw [e1, if_neg (by omega), e2, e3] at f2 c2
      refine ⟨?_, ?_⟩
      · intro k hk hreads hfree
        have hdisk1 : s₁.disk (src + k) = s.disk (src + k) := hal.upd.disk _ hfree
        have hdisk2 : s₂.disk (src + k) = s₁.disk (src + k) := u1.disk _ hfree
        rcases hk with hk | hk
        · rw [f2 k (by omega), c1 k (Nat.zero_le _) (by omega) (by omega) (by omega)
            (hreads _ _ rfl le_rfl (by dsimp only; omega))]
          rw [Nat.sub_zero, hdisk1]
        · rw [c2 k hk (by omega) (by omega) (by omega)
            (hreads _ _ rfl (by dsimp only; omega) (by dsimp only; omega))]
          rw [show src + (off + n) + (k.val - (off + n)) = src + k by omega, hdisk2, hdisk1]
      · intro k h1 h2
        rw [f2 k (by omega), f1 k (by omega)]

/-! ## `swap_create` -/

/-- A new entry at the next free address. -/
def View.alloc (v : View) (i : SwapInfo) : View := { v.setInfo v.brk i with brk := v.brk + 1 }

theorem View.alloc_setBitmap_setInfo (v : View) (i j : SwapInfo) (b : BitVec 1024) :
    ((v.alloc i).setBitmap b).setInfo v.brk j = (v.setBitmap b).alloc j := by
  simp [View.alloc, View.setInfo, View.setBitmap]

/-- Nothing that the list can see has changed, and no bit was lost. -/
structure View.Keep (v w : View) : Prop where
  geom : w.geom = v.geom
  list : w.list = v.list
  num : w.num = v.num
  info : ∀ p < v.brk, w.info p = v.info p
  brk : v.brk ≤ w.brk
  bits : BitsLe v.bitmap w.bitmap

theorem View.Keep.refl (v : View) : v.Keep v := ⟨rfl, rfl, rfl, fun _ _ => rfl, le_rfl, BitsLe.refl _⟩

theorem View.Keep.trans {u v w : View} (h1 : u.Keep v) (h2 : v.Keep w) : u.Keep w :=
  ⟨h2.geom.trans h1.geom, h2.list.trans h1.list, h2.num.trans h1.num,
    fun p hp => (h2.info p (hp.trans_le h1.brk)).trans (h1.info p hp), h1.brk.trans h2.brk,
    h1.bits.trans h2.bits⟩

theorem View.Keep.setBitmap {v w : View} (h : v.Keep w) {b : BitVec 1024} (hb : BitsLe v.bitmap b) :
    v.Keep (w.setBitmap b) :=
  ⟨h.geom, h.list, h.num, h.info, h.brk, hb⟩

/-- Entries at new addresses are not seen. -/
theorem View.Keep.setInfo {v w : View} (h : v.Keep w) {p : ℕ} (hp : v.brk ≤ p) (i : SwapInfo) :
    v.Keep (w.setInfo p i) :=
  ⟨h.geom, h.list, h.num, fun q hq => by rw [View.setInfo_info_of_ne _ _ (by omega), h.info q hq], h.brk, h.bits⟩

theorem View.Keep.alloc {v w : View} (h : v.Keep w) (i : SwapInfo) : v.Keep (w.alloc i) :=
  let k := h.setInfo h.brk i
  ⟨k.geom, k.list, k.num, k.info, k.brk.trans (Nat.le_succ _), k.bits⟩

/-- What a creation may write. -/
def CreateArea (v : View) (x : ℕ) : Prop := FreeArea v x ∨ HeadArea v.geom x ∨ LogArea v.geom x

theorem swapAllocInfo_spec {a : Option ℕ} (h : (swapAllocInfo E).run s = some (a, s')) :
    (a = none ∧ Dev A s s') ∨
      (a = some s.brk ∧ Upd A (s.view.alloc ⟨SwapTable.zero, some fun _ => zeroSector⟩) s s') := by
  unfold swapAllocInfo at h
  obtain ⟨k, s₁, h1, h2⟩ := run_bind_iff.1 h
  have hd1 := kmalloc_dev (A := A) h1
  cases k with
  | false =>
    obtain ⟨rfl, rfl⟩ := run_pure_iff.1 h2
    exact Or.inl ⟨rfl, hd1⟩
  | true =>
    rw [if_pos rfl] at h2
    obtain ⟨k, s₂, h3, h4⟩ := run_bind_iff.1 h2
    have hd2 := hd1.dev (kmalloc_dev (A := A) h3)
    cases k with
    | false =>
      obtain ⟨rfl, rfl⟩ := run_pure_iff.1 h4
      exact Or.inl ⟨rfl, hd2⟩
    | true =>
      rw [if_pos rfl, run_get_bind, run_set_bind] at h4
      obtain ⟨rfl, rfl⟩ := run_pure_iff.1 h4
      have hb : s₂.brk = s.brk := congrArg View.brk hd2.view
      refine Or.inr ⟨by rw [hb], ?_, hd2.disk, hd2.dead⟩
      have hv := (hd2.setInfo s₂.brk ⟨SwapTable.zero, some fun _ => zeroSector⟩).view
      have hs :
          (World.view { s₂.setInfo s₂.brk ⟨SwapTable.zero, some fun _ => zeroSector⟩ with brk := s₂.brk + 1 })
          = { (s₂.setInfo s₂.brk ⟨SwapTable.zero, some fun _ => zeroSector⟩).view with brk := s₂.brk + 1 } := rfl
      rw [hs, hv, hb]
      rfl

/-- What `swap_create` made: an entry at the next address, ready to be entered in the list. -/
structure Made (A : ℕ → Prop) (s s' : World) (src : ℕ) (b : BitVec 1024) (index : ℕ) (d : Block) : Prop where
  room : s.view.num < maxSwapBlockForUse
  upd : Upd A ((s.view.setBitmap b).alloc ⟨entryFor s.view.geom.data src index, some d⟩) s s'
  bits : BitsLe s.view.bitmap b
  fresh : index < 1024 ∧ s.view.bitmap.getLsbD index = false ∧ b.getLsbD index = true

namespace Made

variable {s₀ : World} {B : ℕ → Prop} {src index : ℕ} {b : BitVec 1024} {d : Block}

theorem mono (h : Made A s s' src b index d) (hAB : ∀ x, A x → B x) : Made B s s' src b index d :=
  ⟨h.room, h.upd.mono hAB, h.bits, h.fresh⟩

theorem dev (h : Made A s₀ s src b index d) (hd : Dev A s s') : Made A s₀ s' src b index d :=
  ⟨h.room, h.upd.dev hd, h.bits, h.fresh⟩

theorem after (h : Made A s s' src b index d) (hd : Dev A s₀ s) : Made A s₀ s' src b index d := by
  obtain ⟨h1, h2, h3, h4⟩ := h
  rw [hd.view] at h1 h2 h3 h4
  exact ⟨h1, hd.trans h2, h3, h4⟩

end Made

/-- The two ways a creation can end: nothing the list can see has changed, or there is an
entry for the block of `start`, with copies of the disk around the requested sectors. -/
def CreateResult (E : Env) (s s' : World) (start count : ℕ) (made : Bool) : Prop :=
  (made = false ∧ ∃ w, s.view.Keep w ∧ Upd (CreateArea s.view) w s s') ∨
    (made = true ∧ ∃ b index d, Made (CreateArea s.view) s s' (swapSectorAlign start) b index d ∧
      (start + count ≤ swapSectorAlign start + 128 → swapSectorAlign start + 128 ≤ 2 ^ 32 →
        Copies E s (swapSectorAlign start) (start - swapSectorAlign start) count d))

theorem CreateResult.dev {start count : ℕ} {made : Bool} {s'' : World} (h : CreateResult E s s' start count made)
    (hd : Dev (LogArea s'.geom) s' s'') : CreateResult E s s'' start count made := by
  have hlog : s'.geom = s.view.geom → Dev (CreateArea s.view) s' s'' := fun hg =>
    hd.mono fun x hx => Or.inr (Or.inr (hg ▸ hx))
  rcases h with ⟨rfl, w, hk, hu⟩ | ⟨rfl, b, index, d, hm, hc⟩
  · exact Or.inl ⟨rfl, w, hk, hu.dev (hlog (hu.geom.trans hk.geom))⟩
  · exact Or.inr ⟨rfl, b, index, d, hm.dev (hlog hm.upd.geom), hc⟩

/-- A creation after steps that left memory and disk alone. -/
theorem CreateResult.after {start count : ℕ} {made : Bool} {s₀ : World} (h : CreateResult E s s' start count made)
    (hd : Dev (fun _ => False) s₀ s) : CreateResult E s₀ s' start count made := by
  have hdisk : ∀ x, s.disk x = s₀.disk x := fun x => hd.disk x id
  unfold CreateResult at h
  rw [hd.view] at h
  rcases h with ⟨rfl, w, hk, hu⟩ | ⟨rfl, b, index, d, hm, hc⟩
  · exact Or.inl ⟨rfl, w, hk, (hd.mono fun _ => False.elim).trans hu⟩
  · refine Or.inr ⟨rfl, b, index, d, hm.after (hd.mono fun _ => False.elim), ?_⟩
    intro h5 h6
    obtain ⟨h7, h8⟩ := hc h5 h6
    simp only [hd.view, hdisk] at h7
    exact ⟨h7, h8⟩

theorem entryFor_index {sectorData src index : ℕ} (h : index < 1024) :
    (entryFor sectorData src index).index.toNat = index := by
  have : (entryFor sectorData src index).index = .ofNat 32 index := rfl
  rw [this, BitVec.toNat_ofNat]
  omega

theorem swapCreateTry_spec {start count : ℕ} {a : ℕ ⊕ LogCreateFailed}
    (h : (swapCreateTry E start count).run s = some (a, s')) :
    CreateResult E s s' start count a.isLeft ∧ ∀ p, a = .inl p → p = s.brk := by
  have hal := swapSectorAlign_le start
  have hlt := lt_swapSectorAlign_add start
  unfold swapCreateTry at h
  rw [run_get_bind] at h
  split at h
  · obtain ⟨rfl, rfl⟩ := run_pure_iff.1 h
    exact ⟨Or.inl ⟨rfl, _, View.Keep.refl _, Dev.refl _⟩, by simp⟩
  rename_i hroom
  obtain ⟨o, s₁, h1, h2⟩ := run_bind_iff.1 h
  rcases swapAllocInfo_spec (A := fun _ => False) h1 with ⟨rfl, hd⟩ | ⟨rfl, hupd₀⟩
  · obtain ⟨rfl, rfl⟩ := run_pure_iff.1 h2
    exact ⟨Or.inl ⟨rfl, _, View.Keep.refl _, hd.mono fun _ => False.elim⟩, by simp⟩
  have hupd := hupd₀.mono (B := CreateArea s.view) fun _ => False.elim
  dsimp only at h2
  obtain ⟨ok, s₂, h3, h4⟩ := run_bind_iff.1 h2
  have e1 : s32 ((start : ℤ) - swapSectorAlign start) = ((start - swapSectorAlign start : ℕ) : ℤ) := by
    rw [← Nat.cast_sub hal]; exact s32_ofNat (by omega)
  rw [e1] at h3
  have hp : s₁.view.info s.brk = ⟨SwapTable.zero, some fun _ => zeroSector⟩ := by
    rw [hupd.view]
    exact View.setInfo_info_self ..
  have hfree : ∀ x, FreeArea s₁.view x ↔ FreeArea s.view x := by
    intro x; unfold FreeArea; rw [hupd.view]; rfl
  have hk1 : s.view.Keep s₁.view := by rw [hupd.view]; exact (View.Keep.refl _).alloc _
  rcases swapCreate'_spec h3 hp with ⟨rfl, b, hal⟩ | ⟨rfl, b, index, d, hc, hcopies⟩
  · -- no spare block could be had
    obtain ⟨rfl, rfl⟩ := run_pure_iff.1 h4
    exact ⟨Or.inl ⟨rfl, _, hk1.setBitmap (hk1.bits.trans hal.bits),
      hupd.trans (hal.upd.mono fun x hx => Or.inl ((hfree x).1 hx))⟩, by simp⟩
  rw [if_pos rfl] at h4
  obtain ⟨ok, s₃, h5, h6⟩ := run_bind_iff.1 h4
  have hg : s₂.geom = s.geom := by
    rw [show s₂.geom = s₂.view.geom from rfl, hc.upd.view, hupd.view]; rfl
  have hupd2 := hupd.trans (hc.upd.mono (B := CreateArea s.view) fun x hx => Or.inl ((hfree x).1 hx))
  have hupd3 := hupd2.dev ((flushSwapHead_dev h5).mono (B := CreateArea s.view)
    fun x hx => Or.inr (Or.inl (by rw [hg] at hx; exact hx)))
  obtain ⟨f1, f2, f3⟩ := hc.fresh
  have hbm : s₁.view.bitmap = s.view.bitmap := by rw [hupd.view]; rfl
  rw [hbm] at f2
  have hbits : BitsLe s.view.bitmap b := hbm ▸ hc.bits
  cases ok with
  | false =>
    -- the head could not be saved: the bit is taken back
    rw [if_neg (by simp), run_modify_bind] at h6
    obtain ⟨rfl, rfl⟩ := run_pure_iff.1 h6
    have hi : (s₃.heap s.brk).table.index.toNat = index := by
      have := congrArg (fun i => i.table.index.toNat) (hupd3.info s.brk)
      rw [View.setInfo_info_self] at this
      exact this.trans (entryFor_index f1)
    have hb3 : s₃.core.head.bitmap = b := hupd3.bitmap
    rw [hi, hb3]
    refine ⟨Or.inl ⟨rfl, _, ?_, hupd3.setBitmap _⟩, by simp⟩
    refine View.Keep.setBitmap (View.Keep.setInfo ?_ le_rfl _) (hbits.clear f2)
    exact hk1.setBitmap hbits
  | true =>
    obtain ⟨rfl, rfl⟩ := run_pure_iff.1 h6
    refine ⟨Or.inr ⟨rfl, b, index, d, ⟨Nat.lt_of_not_le hroom, ?_, hbits, ⟨f1, f2, f3⟩⟩, ?_⟩,
      fun p hp => (Sum.inl.inj hp).symm⟩
    · refine ⟨?_, hupd3.disk, hupd3.dead⟩
      rw [hupd3.view, hupd.view]
      exact View.alloc_setBitmap_setInfo ..
    · intro hfit hstart
      have hcp := hcopies count (s32_ofNat (by omega)) (by omega) hstart
      refine ⟨?_, hcp.zero⟩
      intro k hk hr hf
      rw [hcp.copied k hk hr (fun hx => hf ((hfree _).1 hx))]
      exact hupd₀.disk _ id

/-- **`swap_create`** ends in an entry that can be entered in the list, or changes nothing
the list can see. -/
theorem swapCreate_spec {start count : ℕ} {a : Option ℕ} (h : (swapCreate E start count).run s = some (a, s')) :
    CreateResult E s s' start count a.isSome ∧ ∀ p, a = some p → p = s.brk := by
  unfold swapCreate at h
  obtain ⟨r, s₁, h1, h2⟩ := run_bind_iff.1 h
  obtain ⟨hres, hp⟩ := swapCreateTry_spec h1
  cases r with
  | inr e =>
    obtain ⟨x, s₂, h3, h4⟩ := run_bind_iff.1 h2
    obtain ⟨rfl, rfl⟩ := run_pure_iff.1 h4
    exact ⟨hres.dev (scsiSwapLogPush_dev h3), by simp⟩
  | inl p =>
    dsimp only at h2
    rw [run_get_bind] at h2
    obtain ⟨x, s₂, h3, h4⟩ := run_bind_iff.1 h2
    obtain ⟨rfl, rfl⟩ := run_pure_iff.1 h4
    refine ⟨hres.dev (scsiSwapLogPush_dev h3), ?_⟩
    rintro q ⟨⟩
    exact hp p rfl

/-! ## `_swap_write` and `swap_recreate` -/

/-- The place of a mapping's data on the disk. -/
def MapArea (v : View) (p x : ℕ) : Prop :=
  cmdRange (v.info p).table.swapSec.toNat (v.info p).table.secSize.toNat x

/-- The mapping at `p` with data `d`. -/
def View.setData (v : View) (p : ℕ) (d : Block) : View := v.setInfo p ⟨(v.info p).table, some d⟩

@[simp] theorem View.setData_setData (v : View) (p : ℕ) (d d' : Block) :
    (v.setData p d).setData p d' = v.setData p d' := by
  unfold View.setData
  rw [View.setInfo_setInfo, View.setInfo_info_self]
  exact View.setInfo_congr rfl

@[simp] theorem View.setData_bitmap (v : View) (p : ℕ) (d : Block) : (v.setData p d).bitmap = v.bitmap := rfl
@[simp] theorem View.setData_geom (v : View) (p : ℕ) (d : Block) : (v.setData p d).geom = v.geom := rfl
@[simp] theorem View.setData_list (v : View) (p : ℕ) (d : Block) : (v.setData p d).list = v.list := rfl
@[simp] theorem View.setData_num (v : View) (p : ℕ) (d : Block) : (v.setData p d).num = v.num := rfl

theorem Upd.setData {v : View} (h : Upd A v s s') (p : ℕ) (d : Block) :
    Upd A (v.setData p d) s (s'.setInfo p { s'.heap p with data := some d }) := by
  have := h.setInfo p { s'.heap p with data := some d }
  refine ⟨this.view.trans (View.setInfo_congr ?_), this.disk, this.dead⟩
  rw [← h.info p]
  rfl

theorem run_oops {α : Type} {a : α} (h : (oops : SwapM α).run s = some (a, s')) : False := by
  simp [oops, StateT.run] at h

/-- The result of a write into a mapping's data, as far as memory goes. -/
theorem swapWrite'_spec {p start count : ℕ} {buf : ℕ → Sector} {a : Bool}
    (h : (swapWrite' E p start count buf).run s = some (a, s')) :
    ∃ d, (s.view.info p).data = some d ∧ Upd (MapArea s.view p)
      (s.view.setData p (copyIn d (dataOffset start (u32 (swapSectorAlign start))) count buf)) s s' := by
  unfold swapWrite' at h
  rw [run_get_bind] at h
  split at h
  · exact (run_oops h).elim
  rename_i d hd
  dsimp only at h
  rw [run_set_bind] at h
  refine ⟨d, hd, ?_⟩
  have h0 := (Dev.refl (A := MapArea s.view p) s).setData p
    (copyIn d (dataOffset start (u32 (swapSectorAlign start))) count buf)
  refine h0.dev ((flushSwapInfoData_dev h).mono fun x hx => ?_)
  simpa [World.setInfo, MapArea, View.info, World.view, SwapInfo.strip] using hx

theorem rereadSector_spec {p i : ℕ} {u : PUnit} (h : (rereadSector E p i).run s = some (u, s')) :
    ∃ d, Upd A (s.view.setData p d) s s' := by
  unfold rereadSector at h
  rw [run_get_bind] at h
  split at h
  · exact (run_oops h).elim
  rename_i d hd
  obtain ⟨r, s₁, h1, h2⟩ := run_bind_iff.1 h
  obtain rfl := run_modify_iff.1 h2
  have hdev := hdReadSector_dev (A := A) h1
  have hd1 : (s₁.heap p).data = some d := by rw [hdev.data p]; exact hd
  rw [hd1]
  exact ⟨_, hdev.setData p _⟩

theorem reread_spec {p : ℕ} {u : PUnit} (h : ((List.range 128).forM (rereadSector E p)).run s = some (u, s')) :
    ∃ d, Upd A (s.view.setData p d) s s' := by
  have hrun := forM_inv (P := fun k t => (k = 0 ∧ t = s) ∨ ∃ d, Upd A (s.view.setData p d) s t) _ 0 s s' u
    (Or.inl ⟨rfl, rfl⟩) h ?_
  · simpa using hrun
  · intro j hj t v t₁ hP ht
    obtain ⟨d', hu'⟩ := rereadSector_spec (A := A) ht
    rcases hP with ⟨-, rfl⟩ | ⟨d, hu⟩
    · exact Or.inr ⟨d', hu'⟩
    · rw [hu.view, View.setData_setData] at hu'
      exact Or.inr ⟨d', hu.trans hu'⟩

/-- The mapping at `p` moved to spare block `index`. -/
def View.move (v : View) (p : ℕ) (b : BitVec 1024) (index : ℕ) (d : Block) : View :=
  (v.setBitmap b).setInfo p ⟨(v.info p).table.assign v.geom.data index, some d⟩

/-- What a move may write, besides the block the mapping moves to. -/
def MoveArea (v : View) (x : ℕ) : Prop :=
  FreeArea v x ∨ TableArea v.geom (33 + v.list.length) x ∨ HeadArea v.geom x

/-- **`swap_recreate`** does not begin, or it moves the entry to a block that was free. When it
returns -1 after that, the entry has moved but the bit of its new block is clear. -/
theorem swapRecreate_spec {p : ℕ} {a : Bool} (h : (swapRecreate E p).run s = some (a, s')) :
    (a = false ∧ ∃ b, BitsLe s.view.bitmap b ∧ Upd (MoveArea s.view) (s.view.setBitmap b) s s') ∨
      (s.core.infoNum < maxSwapBlockForUse ∧ ∃ b index d, BitsLe s.view.bitmap b ∧ index < 1024 ∧
        s.view.bitmap.getLsbD index = false ∧ b.getLsbD index = a ∧
        Upd (fun x => MoveArea s.view x ∨ MapArea (s.view.move p b index d) p x)
          (s.view.move p b index d) s s') := by
  unfold swapRecreate at h
  rw [run_get_bind] at h
  split at h
  · obtain ⟨rfl, rfl⟩ := run_pure_iff.1 h
    exact Or.inl ⟨rfl, s'.view.bitmap, BitsLe.refl _, Dev.refl _⟩
  rename_i hroom
  obtain ⟨o, s₁, h1, h2⟩ := run_bind_iff.1 h
  obtain ⟨b, hal⟩ := swapAllocNewBlock_alloc h1
  cases o with
  | none =>
    obtain ⟨rfl, rfl⟩ := run_pure_iff.1 h2
    exact Or.inl ⟨rfl, b, hal.bits, hal.upd.mono fun x hx => Or.inl hx⟩
  | some index =>
    obtain ⟨f1, f2, f3⟩ := hal.fresh index rfl
    refine Or.inr ⟨Nat.lt_of_not_le hroom, ?_⟩
    dsimp only at h2
    obtain ⟨u, s₂, h3, h4⟩ := run_bind_iff.1 h2
    rw [run_modify_bind] at h4
    obtain ⟨ok, s₄, h5, h6⟩ := run_bind_iff.1 h4
    obtain ⟨d, hr⟩ := reread_spec (A := FreeArea s.view) h3
    have hmem := hal.upd.trans hr
    have hinfo : (s₂.heap p).strip = ⟨(s.view.info p).table, some d⟩ := by
      rw [hmem.info p, hal.upd.view]
      exact View.setInfo_info_self ..
    have hdata : s₂.core.sectorData = s.view.geom.data := by
      rw [show s₂.core.sectorData = s₂.view.geom.data from rfl, hmem.view, hal.upd.view]; rfl
    -- the entry is moved, in memory
    have hmove : Upd (FreeArea s.view) (s.view.move p b index d) s (s₂.setInfo p
        { s₂.heap p with table := (s₂.heap p).table.assign s₂.core.sectorData index }) := by
      have := hmem.setInfo p { s₂.heap p with table := (s₂.heap p).table.assign s₂.core.sectorData index }
      refine ⟨this.view.trans ?_, this.disk, this.dead⟩
      unfold View.setData View.move
      rw [hal.upd.view, View.setInfo_setInfo]
      refine View.setInfo_congr ?_
      rw [hdata, ← assign_strip _ 0]
      have ht : { (s₂.heap p).table with saveSec := 0 } = (s.view.info p).table := congrArg SwapInfo.table hinfo
      have hdd : (s₂.heap p).data = some d := congrArg SwapInfo.data hinfo
      rw [ht, hdd]
    set s₃ := s₂.setInfo p { s₂.heap p with table := (s₂.heap p).table.assign s₂.core.sectorData index }
    have hflush : Upd (fun x => MoveArea s.view x ∨ MapArea (s.view.move p b index d) p x)
        (s.view.move p b index d) s s₄ := by
      have hmove' := hmove.mono (B := fun x => MoveArea s.view x ∨ MapArea (s.view.move p b index d) p x)
        fun x hx => Or.inl (Or.inl hx)
      obtain ⟨ok1, t₁, g1, g2⟩ := run_bind_iff.1 h5
      have hu1 := hmove'.dev ((flushSwapInfoData_dev g1).mono fun x hx => ?_)
      · cases ok1 with
        | false =>
          obtain ⟨-, rfl⟩ := run_pure_iff.1 g2
          exact hu1
        | true =>
          rw [if_pos rfl] at g2
          obtain ⟨ok2, t₂, g3, g4⟩ := run_bind_iff.1 g2
          obtain ⟨rfl, hdv⟩ := flushSwapInfoTable_dev g3
          have hu2 := hu1.dev (hdv.mono fun x hx => Or.inl (Or.inr (Or.inl ?_)))
          · rw [if_pos rfl] at g4
            refine hu2.dev ((flushSwapHead_dev g4).mono fun x hx => Or.inl (Or.inr (Or.inr ?_)))
            rw [hu2.geom] at hx
            exact hx
          · have hl : t₁.core.infoList = s.view.list := congrArg View.list hu1.view
            rw [hu1.geom, hl] at hx
            exact hx
      · -- the new block
        have hi3 := hmove.info p
        have e1 : (s₃.heap p).table.swapSec = ((s.view.move p b index d).info p).table.swapSec :=
          congrArg (fun i => i.table.swapSec) hi3
        have e2 : (s₃.heap p).table.secSize = ((s.view.move p b index d).info p).table.secSize :=
          congrArg (fun i => i.table.secSize) hi3
        rw [e1, e2] at hx
        exact Or.inr hx
    cases ok with
    | true =>
      obtain ⟨rfl, rfl⟩ := run_pure_iff.1 h6
      exact ⟨b, index, d, hal.bits, f1, f2, f3, hflush⟩
    | false =>
      -- the label `err`
      rw [if_neg (by simp), run_modify_bind] at h6
      obtain ⟨rfl, rfl⟩ := run_pure_iff.1 h6
      have hb : s₄.core.head.bitmap = b := hflush.bitmap
      rw [hb]
      refine ⟨bitmapClear b index, index, d, hal.bits.clear f2, f1, f2, ?_, (hflush.mono ?_).setBitmap _⟩
      · rw [bitmapClear_getLsbD]
        simp
      · exact fun x hx => hx

end ScsiSwap
