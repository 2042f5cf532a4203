import ScsiSwap.Proof.Mapping

/-!
# One block of a request

`coreWriteBlock` and `coreReadBlock` take about eight paths each. `coreWriteBlock_step` and
`coreReadBlock_step` list what a finished round may have done, whatever the device did:
everything later modules prove about requests is derived from these two lists. They need
the invariant `View.Inv` of the driver's memory, which `WriteStep.inv` and `ReadStep.inv`
show to be kept.
-/

namespace ScsiSwap

open StateOption ByteCodec

variable {E : Env} {s s' : World} {A : ℕ → Prop} {v w : View}

/-! ## The invariant -/

/-- A mapping is well formed. -/
structure SwapInfo.Ok (g : Geom) (i : SwapInfo) : Prop where
  size : i.table.secSize = 128
  index : i.table.index.toNat < maxSwapBlock
  swap : i.table.swapSec.toNat = g.data + 128 * i.table.index.toNat
  aligned : i.table.srcSec.toNat % 128 = 0
  src : i.table.srcSec.toNat < g.reserve
  crc : i.table.checksum = i.table.crc
  data : i.data.isSome

/-- **The invariant of the driver's memory.** -/
structure View.Inv (v : View) : Prop where
  geom : v.geom.Ok
  num : v.num = v.list.length
  room : v.list.length ≤ maxSwapBlockForUse
  old : ∀ p ∈ v.list, p < v.brk
  info : ∀ p ∈ v.list, (v.info p).Ok v.geom
  src : ∀ p ∈ v.list, ∀ q ∈ v.list, (v.info p).table.srcSec = (v.info q).table.srcSec → p = q
  nodup : v.list.Nodup

/-- `swap_find_swap_info`, on the memory. -/
def View.find (v : View) (sector : ℕ) : Option ℕ :=
  v.list.find? fun p => (v.info p).table.srcSec.toNat = sector

theorem find_view (sector : ℕ) : s.swapFindSwapInfo sector = s.view.find sector := rfl

theorem View.find_some {sector p : ℕ} (h : v.find sector = some p) :
    p ∈ v.list ∧ (v.info p).table.srcSec.toNat = sector := by
  unfold View.find at h
  exact ⟨List.mem_of_find?_eq_some h, by simpa using List.find?_some h⟩

theorem View.find_none {sector : ℕ} : v.find sector = none ↔
    ∀ p ∈ v.list, (v.info p).table.srcSec.toNat ≠ sector := by
  unfold View.find
  rw [List.find?_eq_none]
  simp

/-- Lookup sees the list and its source sectors only. -/
theorem View.find_congr (hl : w.list = v.list)
    (hs : ∀ p ∈ v.list, (w.info p).table.srcSec = (v.info p).table.srcSec) (sector : ℕ) :
    w.find sector = v.find sector := by
  unfold View.find
  rw [hl]
  refine List.find?_congr ?_
  intro p hp
  rw [hs p hp]

theorem SwapInfo.Ok.setData {g : Geom} {i : SwapInfo} (h : i.Ok g) (d : Block) :
    (SwapInfo.strip ⟨i.table, some d⟩).Ok g :=
  ⟨h.size, h.index, h.swap, h.aligned, h.src, h.crc.trans (crc_congr rfl), rfl⟩

theorem View.Inv.keep (h : v.Inv) (hk : v.Keep w) : w.Inv where
  geom := hk.geom ▸ h.geom
  num := by rw [hk.num, hk.list]; exact h.num
  room := by rw [hk.list]; exact h.room
  old := by
    intro p hp
    rw [hk.list] at hp
    exact (h.old p hp).trans_le hk.brk
  info := by
    intro p hp
    rw [hk.list] at hp
    rw [hk.info p (h.old p hp), hk.geom]
    exact h.info p hp
  src := by
    intro p hp q hq
    rw [hk.list] at hp hq
    rw [hk.info p (h.old p hp), hk.info q (h.old q hq)]
    exact h.src p hp q hq
  nodup := hk.list ▸ h.nodup

/-- Changing one mapping, but not its source. -/
theorem View.Inv.setInfo (h : v.Inv) {p : ℕ} {i : SwapInfo} (hi : i.strip.Ok v.geom)
    (hs : i.table.srcSec = (v.info p).table.srcSec) : (v.setInfo p i).Inv where
  geom := h.geom
  num := h.num
  room := h.room
  old := h.old
  info := by
    intro q hq
    by_cases hqp : q = p
    · subst hqp; rw [View.setInfo_info_self]; exact hi
    · rw [View.setInfo_info_of_ne _ _ hqp]; exact h.info q hq
  src := by
    have hsrc : ∀ q, ((v.setInfo p i).info q).table.srcSec = (v.info q).table.srcSec := by
      intro q
      by_cases hqp : q = p
      · subst hqp; rw [View.setInfo_info_self]; exact hs
      · rw [View.setInfo_info_of_ne _ _ hqp]
    intro q hq r hr hqr
    rw [hsrc, hsrc] at hqr
    exact h.src q hq r hr hqr
  nodup := h.nodup

theorem View.Inv.setBitmap (h : v.Inv) (b : BitVec 1024) : (v.setBitmap b).Inv :=
  ⟨h.geom, h.num, h.room, h.old, h.info, h.src, h.nodup⟩

theorem View.Inv.setData (h : v.Inv) {p : ℕ} (hp : p ∈ v.list) (d : Block) : (v.setData p d).Inv :=
  h.setInfo ((h.info p hp).setData d) rfl

/-- A moved entry is well formed. -/
theorem SwapInfo.Ok.assign {g : Geom} (hg : g.Ok) {i : SwapInfo} (h : i.Ok g) {index : ℕ}
    (hi : index < maxSwapBlock) (d : Block) :
    (SwapInfo.strip ⟨i.table.assign g.data index, some d⟩).Ok g := by
  have hd := hg.data
  have hs := hg.size
  simp only [swapDataOffset, sector8M, maxReservedSector, maxSwapBlock] at hd hs hi
  have hidx : (BitVec.ofNat 32 index).toNat = index := by
    rw [BitVec.toNat_ofNat, Nat.mod_eq_of_lt (by omega)]
  refine ⟨h.size, ?_, ?_, h.aligned, h.src, ?_, rfl⟩
  · show (BitVec.ofNat 32 index).toNat < maxSwapBlock
    rw [hidx]; exact hi
  · show (BitVec.ofNat 64 (g.data + 128 * index)).toNat = g.data + 128 * (BitVec.ofNat 32 index).toNat
    rw [hidx, BitVec.toNat_ofNat, Nat.mod_eq_of_lt (by omega)]
  · exact crc_congr rfl

theorem View.Inv.move (h : v.Inv) {p : ℕ} (hp : p ∈ v.list) (b : BitVec 1024) {index : ℕ}
    (hi : index < maxSwapBlock) (d : Block) : (v.move p b index d).Inv :=
  (h.setBitmap b).setInfo ((h.info p hp).assign h.geom hi d) rfl

/-! ## `swap_write` -/

/-- The offset `_swap_write` uses: the 32-bit copy of the block's start does no harm. -/
theorem dataOffset_eq (start : ℕ) :
    dataOffset start (u32 (swapSectorAlign start)) = start - swapSectorAlign start := by
  have h1 := swapSectorAlign_le start
  have h2 := lt_swapSectorAlign_add start
  unfold dataOffset s32 u32
  omega

/-- What `swap_write` did to the mapping at `p`. -/
inductive Wrote (E : Env) (s : World) (p start count : ℕ) (buf : ℕ → Sector) : Ret → View → Prop
  /-- The block took the data. -/
  | done {d} (hd : (s.view.info p).data = some d) :
      Wrote E s p start count buf .ok (s.view.setData p (copyIn d (start - swapSectorAlign start) count buf))
  /-- The block did not, and no other could be had. -/
  | stuck {t₁ b d} (hf : (swapWrite' E p start count buf).run s = some (false, t₁))
      (hb : BitsLe s.view.bitmap b) : Wrote E s p start count buf .err ((s.view.setBitmap b).setData p d)
  /-- The mapping moved to another block, which took the data. -/
  | moved {t₁ b index d} (hf : (swapWrite' E p start count buf).run s = some (false, t₁))
      (hb : BitsLe s.view.bitmap b) (hi : index < 1024) (hfree : s.view.bitmap.getLsbD index = false)
      (hbit : b.getLsbD index = true) :
      Wrote E s p start count buf .dirty
        (s.view.move p b index (copyIn d (start - swapSectorAlign start) count buf))
  /-- The mapping moved, but the write into the new block failed. -/
  | lost {t₁ b index d} (hf : (swapWrite' E p start count buf).run s = some (false, t₁))
      (hb : BitsLe s.view.bitmap b) (hi : index < 1024) (hfree : s.view.bitmap.getLsbD index = false)
      (hbit : b.getLsbD index = true) : Wrote E s p start count buf .err (s.view.move p b index d)
  /-- The move itself failed half-way. -/
  | cut {t₁ t₂ b index d} (hf : (swapWrite' E p start count buf).run s = some (false, t₁))
      (hr : (swapRecreate E p).run t₁ = some (false, t₂)) (ht : (t₂.heap p).table.index = .ofNat 32 index)
      (ht₁ : (t₁.heap p).table.index = (s.view.info p).table.index)
      (hb : BitsLe s.view.bitmap b) (hi : index < 1024) (hfree : s.view.bitmap.getLsbD index = false)
      (hbit : b.getLsbD index = false) : Wrote E s p start count buf .err (s.view.move p b index d)

theorem View.move_setData (v : View) (p : ℕ) (b : BitVec 1024) (index : ℕ) (d d' : Block) :
    (v.setData p d).move p b index d' = v.move p b index d' := by
  unfold View.move View.setData
  rw [View.setInfo_setBitmap, View.setInfo_setInfo, View.setInfo_info_self]
  exact View.setInfo_congr (assign_strip _ 0 _ _ _)

theorem View.setData_move (v : View) (p : ℕ) (b : BitVec 1024) (index : ℕ) (d d' : Block) :
    (v.move p b index d).setData p d' = v.move p b index d' := by
  unfold View.move View.setData
  rw [View.setInfo_setInfo, View.setInfo_info_self]
  exact View.setInfo_congr rfl

theorem move_index {p : ℕ} {b : BitVec 1024} {index : ℕ} (hi : index < 1024) {d : Block} :
    ((v.move p b index d).info p).table.index.toNat = index := by
  unfold View.move
  rw [View.setInfo_info_self]
  show (BitVec.ofNat 32 index).toNat = index
  rw [BitVec.toNat_ofNat, Nat.mod_eq_of_lt (by omega)]

theorem View.Keep.move {p : ℕ} (h : w.Keep v) (hp : w.brk ≤ p) {b : BitVec 1024} (hb : BitsLe w.bitmap b)
    (index : ℕ) (d : Block) : w.Keep (v.move p b index d) :=
  (h.setBitmap hb).setInfo hp _

theorem mapArea_reserved {p : ℕ} {x : ℕ} (hg : v.geom.Ok) (h : (v.info p).Ok v.geom) (hx : MapArea v p x) :
    Reserved v.geom x := by
  have h2 := h.index
  have h3 := hg.data
  have h4 := hg.size
  unfold MapArea at hx
  rw [h.swap, h.size] at hx
  unfold cmdRange at hx
  unfold Reserved
  simp only [swapDataOffset, sector8M, maxReservedSector, maxSwapBlock] at *
  omega

theorem moveArea_reserved {x : ℕ} (hg : v.geom.Ok) (hl : v.list.length ≤ maxSwapBlockForUse)
    (hx : MoveArea v x) : Reserved v.geom x := by
  simp only [maxSwapBlockForUse] at hl
  rcases hx with hx | hx | hx
  · exact hx.reserved hg
  · exact hx.reserved hg (by omega)
  · exact hx.reserved hg

/-- The entry at `p` lies where the layout wants it. -/
structure View.Placed (v : View) (p : ℕ) : Prop where
  geom : v.geom.Ok
  room : v.list.length ≤ maxSwapBlockForUse
  info : (v.info p).Ok v.geom

theorem View.Inv.placed (h : v.Inv) {p : ℕ} (hp : p ∈ v.list) : v.Placed p := ⟨h.geom, h.room, h.info p hp⟩

theorem View.Placed.map {p x : ℕ} (h : v.Placed p) (hx : MapArea v p x) : Reserved v.geom x :=
  mapArea_reserved h.geom h.info hx

theorem View.Placed.move {p x : ℕ} (h : v.Placed p) {b : BitVec 1024} {index : ℕ}
    (hi : index < 1024) {d e : Block}
    (hx : MoveArea (v.setData p e) x ∨ MapArea (v.move p b index d) p x) : Reserved v.geom x := by
  rcases hx with hx | hx
  · exact moveArea_reserved (v := v.setData p e) h.geom h.room hx
  · refine mapArea_reserved (v := v.move p b index d) h.geom ?_ hx
    unfold View.move
    rw [View.setInfo_info_self]
    exact h.info.assign h.geom hi d

/-- **`swap_write`**, whatever the device does, ends in one of the five ways. It writes in
the reserve only. -/
theorem swapWrite_spec {p start count : ℕ} {buf : ℕ → Sector} {r : Ret}
    (h : (swapWrite E p start count buf).run s = some (r, s')) :
    ∃ w, Wrote E s p start count buf r w ∧ Upd (Within (s.view.Placed p) (Reserved s.view.geom)) w s s' := by
  unfold swapWrite at h
  obtain ⟨a, t₁, h1, h2⟩ := run_bind_iff.1 h
  obtain ⟨d, hd, hu1⟩ := swapWrite'_spec h1
  rw [dataOffset_eq] at hu1
  replace hu1 := hu1.mono (B := Within (s.view.Placed p) (Reserved s.view.geom)) fun x hx hP => hP.map hx
  cases a with
  | true =>
    obtain ⟨rfl, rfl⟩ := run_pure_iff.1 h2
    exact ⟨_, .done hd, hu1⟩
  | false =>
    rw [if_neg (by simp)] at h2
    obtain ⟨a, t₂, h3, h4⟩ := run_bind_iff.1 h2
    have hv1 := hu1.view
    rcases swapRecreate_spec h3 with ⟨rfl, b, hb, hu2⟩ | ⟨hroom, b, index, d', hb, hi, hfree, hbit, hu2⟩
    · obtain ⟨rfl, rfl⟩ := run_pure_iff.1 h4
      rw [hv1] at hb hu2
      exact ⟨_, .stuck h1 hb, hu1.trans (hu2.mono fun x hx hP =>
        moveArea_reserved (v := s.view.setData p _) hP.geom hP.room hx)⟩
    · rw [hv1] at hb hfree hu2
      rw [View.move_setData] at hu2
      have hu2' := hu1.trans (hu2.mono fun x hx hP => hP.move hi hx)
      cases a with
      | false =>
        obtain ⟨rfl, rfl⟩ := run_pure_iff.1 h4
        have hi1 : t₁.view.info p = SwapInfo.strip ⟨(s.view.info p).table, some _⟩ :=
          (hu1.info p).trans (View.setInfo_info_self ..)
        have ht : (s'.heap p).table.index = .ofNat 32 index := by
          have := congrArg (fun i => i.table.index) (hu2.info p)
          unfold View.move at this
          rw [View.setInfo_info_self] at this
          exact this
        have ht1 : (t₁.heap p).table.index = (s.view.info p).table.index :=
          congrArg (fun i => i.table.index) hi1
        exact ⟨_, .cut h1 h3 ht ht1 hb hi hfree hbit, hu2'⟩
      | true =>
        rw [if_pos rfl] at h4
        obtain ⟨a, t₃, h5, h6⟩ := run_bind_iff.1 h4
        obtain ⟨d₂, hd₂, hu3⟩ := swapWrite'_spec h5
        rw [dataOffset_eq, hu2'.view, View.setData_move] at hu3
        have hu3' := hu2'.trans (hu3.mono fun x hx hP =>
          View.Placed.move (e := d) hP (b := b) (d := d') hi (Or.inr hx))
        cases a with
        | true =>
          obtain ⟨rfl, rfl⟩ := run_pure_iff.1 h6
          exact ⟨_, .moved h1 hb hi hfree hbit, hu3'⟩
        | false =>
          obtain ⟨rfl, rfl⟩ := run_pure_iff.1 h6
          exact ⟨_, .lost h1 hb hi hfree hbit, hu3'⟩

/-! ## Creating a mapping for a block -/

/-- The mapping at `p` entered in the list. -/
def View.enter (v : View) (p : ℕ) : View := { v with list := v.list ++ [p], num := v.num + 1 }

theorem repairAndCreate_spec {start count : ℕ} {a : Option ℕ}
    (h : (repairAndCreate E start count).run s = some (a, s')) :
    CreateResult E s s' start count a.isSome ∧ ∀ p, a = some p → p = s.brk := by
  unfold repairAndCreate at h
  obtain ⟨x, s₁, h1, h2⟩ := run_bind_iff.1 h
  have hd := swapRepairSuccessiveSectors_dev (A := fun _ => False) h1
  rw [run_get_bind] at h2
  split at h2
  · obtain ⟨rfl, rfl⟩ := run_pure_iff.1 h2
    exact ⟨Or.inl ⟨rfl, _, View.Keep.refl _, hd.mono fun _ => False.elim⟩, by simp⟩
  obtain ⟨hres, hp⟩ := swapCreate_spec h2
  have hb : s₁.brk = s.brk := congrArg View.brk hd.view
  exact ⟨hres.after hd, fun p he => (hp p he).trans hb⟩

theorem dropCreated_run {p : ℕ} {u : PUnit} (h : (dropCreated p).run s = some (u, s')) :
    s' = s.setBitmap (bitmapClear s.core.head.bitmap (s.heap p).table.index.toNat) :=
  run_modify_iff.1 h

theorem enterCreated_spec {p : ℕ} {a : Bool} (h : (enterCreated E p).run s = some (a, s')) :
    a = true ∧ Upd (TableArea s.view.geom (34 + s.view.list.length)) (s.view.enter p) s s' := by
  unfold enterCreated at h
  rw [run_modify_bind] at h
  obtain ⟨ok, s₁, h1, h2⟩ := run_bind_iff.1 h
  obtain ⟨rfl, hd⟩ := flushSwapInfoTable_dev h1
  rw [if_pos rfl, run_modify_bind] at h2
  obtain ⟨rfl, rfl⟩ := run_pure_iff.1 h2
  refine ⟨rfl, ?_, ?_, hd.dead⟩
  · have hv := hd.view
    show { s₁.view with num := s₁.view.num + 1 } = _
    rw [hv]
    rfl
  · intro x hx
    refine hd.disk x fun hx' => hx ?_
    refine hx'.mono ?_
    simp only [List.length_append, List.length_singleton, World.view]
    omega

theorem entryFor_ok {g : Geom} (hg : g.Ok) {src index : ℕ} (hi : index < 1024) (hsrc : src < g.reserve)
    (hal : src % 128 = 0) (d : Block) : (SwapInfo.strip ⟨entryFor g.data src index, some d⟩).Ok g := by
  have hd := hg.data
  have hs := hg.size
  simp only [swapDataOffset, sector8M, maxReservedSector] at hd hs
  have hidx : (BitVec.ofNat 32 index).toNat = index := by
    rw [BitVec.toNat_ofNat, Nat.mod_eq_of_lt (by omega)]
  have hsrc64 : (BitVec.ofNat 64 src).toNat = src := by
    rw [BitVec.toNat_ofNat, Nat.mod_eq_of_lt (by omega)]
  refine ⟨rfl, ?_, ?_, ?_, ?_, crc_congr rfl, rfl⟩
  · show (BitVec.ofNat 32 index).toNat < maxSwapBlock
    rw [hidx]; exact hi
  · show (BitVec.ofNat 64 (g.data + 128 * index)).toNat = g.data + 128 * (BitVec.ofNat 32 index).toNat
    rw [hidx, BitVec.toNat_ofNat, Nat.mod_eq_of_lt (by omega)]
  · show (BitVec.ofNat 64 src).toNat % 128 = 0
    rw [hsrc64]; exact hal
  · show (BitVec.ofNat 64 src).toNat < g.reserve
    rw [hsrc64]; exact hsrc

/-- A new mapping, entered in the list, keeps the invariant. -/
theorem View.Inv.create (h : v.Inv) (hk : v.Keep w) (hroom : v.num < maxSwapBlockForUse) {src index : ℕ}
    (hi : index < 1024) (hsrc : src < v.geom.reserve) (hal : src % 128 = 0)
    (hn : v.find src = none) {p : ℕ} (hp : v.brk ≤ p) (hpw : p < w.brk) {d : Block}
    (hinfo : w.info p = SwapInfo.strip ⟨entryFor v.geom.data src index, some d⟩) : (w.enter p).Inv := by
  have hw := h.keep hk
  have hs := h.geom.size
  have hpsrc : (w.info p).table.srcSec.toNat = src := by
    rw [hinfo]
    show (BitVec.ofNat 64 src).toNat = src
    rw [BitVec.toNat_ofNat, Nat.mod_eq_of_lt (by omega)]
  have hok : (w.info p).Ok w.geom := by
    rw [hinfo, hk.geom]
    exact entryFor_ok h.geom hi hsrc hal d
  have hnew : ∀ q ∈ w.list, (w.info q).table.srcSec ≠ (w.info p).table.srcSec := by
    intro q hq hqp
    rw [hk.list] at hq
    refine View.find_none.1 hn q hq ?_
    rw [← hk.info q (h.old q hq), hqp, hpsrc]
  have hmem : ∀ q ∈ (w.enter p).list, q ∈ w.list ∨ q = p := by
    intro q hq
    rcases List.mem_append.1 hq with hq | hq
    · exact Or.inl hq
    · exact Or.inr (List.mem_singleton.1 hq)
  refine ⟨hw.geom, ?_, ?_, ?_, ?_, ?_, ?_⟩
  · show w.num + 1 = (w.list ++ [p]).length
    rw [List.length_append, hw.num]; rfl
  · show (w.list ++ [p]).length ≤ _
    rw [List.length_append, ← hw.num, hk.num]
    exact hroom
  · intro q hq
    rcases hmem q hq with hq | rfl
    · exact hw.old q hq
    · exact hpw
  · intro q hq
    rcases hmem q hq with hq | rfl
    · exact hw.info q hq
    · exact hok
  · intro q hq r hr hqr
    rcases hmem q hq with hq' | hq' <;> rcases hmem r hr with hr' | hr'
    · exact hw.src q hq' r hr' hqr
    · exact absurd (hr' ▸ hqr) (hnew q hq')
    · exact absurd (hq' ▸ hqr).symm (hnew r hr')
    · rw [hq', hr']
  · refine List.Nodup.append hw.nodup (List.nodup_singleton p) ?_
    intro q hq hqp
    rw [List.mem_singleton] at hqp
    subst hqp
    rw [hk.list] at hq
    have := h.old q hq
    omega

/-! ## Segments -/

/-- The part of a request that one round deals with lies in one block, below the reserve at
`R`. -/
structure Seg.Ok (g : Seg) (R : ℕ) : Prop where
  aligned : g.bStart % 128 = 0
  le : g.bStart ≤ g.sStart
  lt : g.sStart < g.bStart + 128
  fit : g.sStart + g.sCount ≤ g.bStart + 128
  user : g.sStart + g.sCount ≤ R
  src : g.bStart < R

/-- The sectors of a segment. -/
def Seg.area (g : Seg) (x : ℕ) : Prop := g.sStart ≤ x ∧ x < g.sStart + g.sCount

namespace Seg.Ok

variable {g : Seg} {R : ℕ}

theorem align (h : g.Ok R) : swapSectorAlign g.sStart = g.bStart := by
  obtain ⟨h1, h2, h3, -, -, -⟩ := h
  unfold swapSectorAlign swapBlockIndex
  omega

theorem small (h : g.Ok R) (hR : R + maxReservedSector ≤ 2 ^ 32) :
    g.sStart < 2 ^ 32 ∧ g.sCount < 2 ^ 16 ∧ g.bStart + 128 ≤ 2 ^ 32 := by
  obtain ⟨h1, h2, h3, h4, h5, h6⟩ := h
  simp only [maxReservedSector] at hR
  omega

theorem cmdRange_iff (h : g.Ok R) (hR : R + maxReservedSector ≤ 2 ^ 32) (x : ℕ) :
    cmdRange g.sStart g.sCount x ↔ g.area x := by
  obtain ⟨h1, h2, -⟩ := h.small hR
  unfold cmdRange Seg.area
  rw [Nat.mod_eq_of_lt h1, Nat.mod_eq_of_lt h2]

end Seg.Ok

/-! ## A round of `scsi_swap_core_write` -/

/-- The memory after a mapping was made for the block at `src` and entered in the list. -/
def View.create (v : View) (b : BitVec 1024) (src index : ℕ) (d : Block) : View :=
  ((v.setBitmap b).alloc ⟨entryFor v.geom.data src index, some d⟩).enter v.brk

/-- The invariant holds, and the segment lies in one block of user sectors. -/
structure View.Fit (v : View) (g : Seg) : Prop where
  inv : v.Inv
  seg : g.Ok v.geom.reserve

/-- What a round of `scsi_swap_core_write` may have done; `src` is the data for the segment.
What is said of the disk, and of the data of a new mapping, is for segments that fit. -/
inductive WriteStep (E : Env) (s : World) (g : Seg) (src : ℕ → Sector) : Ret → World → Prop
  /-- The block is mapped. -/
  | hit {s' : World} {p r w} (hp : s.view.find g.bStart = some p) (hw : Wrote E s p g.sStart g.sCount src r w)
      (hu : Upd (Within (s.view.Fit g) (Reserved s.view.geom)) w s s') :
      WriteStep E s g src (if r = .dirty ∧ 128 ≤ g.sCount then .ok else r) s'
  /-- The block is not mapped and the disk took the data. -/
  | direct {s' : World} (hn : s.view.find g.bStart = none) (hu : Dev (Within (s.view.Fit g) g.area) s s')
      (hd : s.view.Fit g → ∀ x, g.area x → s'.disk x = src (x - g.sStart)) : WriteStep E s g src .ok s'
  /-- The disk refused, and no mapping could be made. -/
  | failed {s' : World} {w} (hn : s.view.find g.bStart = none) (hk : s.view.Keep w)
      (hu : Upd (Within (s.view.Fit g) fun x => Reserved s.view.geom x ∨ g.area x) w s s') :
      WriteStep E s g src .err s'
  /-- A mapping was made. -/
  | created {s' : World} {b index d} (hn : s.view.find g.bStart = none) (hroom : s.view.num < maxSwapBlockForUse)
      (hb : BitsLe s.view.bitmap b) (hi : index < 1024) (hfree : s.view.bitmap.getLsbD index = false)
      (hbit : b.getLsbD index = true)
      (hseg : s.view.Fit g → ∀ k : Fin 128, g.area (g.bStart + k) → d k = src (g.bStart + k - g.sStart))
      (hcopy : s.view.Fit g → ∀ k : Fin 128, ¬ g.area (g.bStart + k) → CopyReads E g.bStart (g.bStart + k) →
        g.bStart + k < s.view.geom.reserve → d k = s.disk (g.bStart + k))
      (hu : Upd (Within (s.view.Fit g) fun x => Reserved s.view.geom x ∨ g.area x)
        (s.view.create b (swapSectorAlign g.sStart) index d) s s') :
      WriteStep E s g src (if g.sCount < 128 then .dirty else .ok) s'

theorem createArea_reserved {x : ℕ} (hg : v.geom.Ok) (hx : CreateArea v x) : Reserved v.geom x := by
  rcases hx with hx | hx | hx
  · exact hx.reserved hg
  · exact hx.reserved hg
  · exact hx.reserved hg

@[simp] theorem alloc_info_self (v : View) (i : SwapInfo) : (v.alloc i).info v.brk = i.strip :=
  View.setInfo_info_self ..

section

variable {src index : ℕ} {b : BitVec 1024} {d : Block}

/-- The entry `swap_create` made, seen from the state before it. -/
theorem Made.entry (h : Made A s s' src b index d) :
    s.view.Keep s'.view ∧ s'.view.info s.brk = SwapInfo.strip ⟨entryFor s.view.geom.data src index, some d⟩ := by
  rw [h.upd.view]
  exact ⟨((View.Keep.refl _).setBitmap h.bits).alloc _, alloc_info_self ..⟩

theorem Made.placed (h : Made A s s' src b index d) (hv : s.view.Inv) (hsrc : src < s.view.geom.reserve)
    (hal : src % 128 = 0) : s'.view.Placed s.brk := by
  obtain ⟨hk, hi⟩ := h.entry
  refine ⟨hk.geom ▸ hv.geom, hk.list ▸ hv.room, ?_⟩
  rw [hi, hk.geom]
  exact entryFor_ok hv.geom h.fresh.1 hsrc hal d

/-- The bit of the new entry was free. -/
theorem Made.free (h : Made A s s' src b index d) :
    s.view.bitmap.getLsbD (s'.view.info s.brk).table.index.toNat = false := by
  rw [h.entry.2]
  exact (entryFor_index h.fresh.1).symm ▸ h.fresh.2.1

end

theorem not_of_bitsLe {b c : BitVec 1024} (h : BitsLe b c) {i : ℕ} (hc : c.getLsbD i = false) :
    b.getLsbD i = false := by
  by_contra hb
  rw [h i (by simpa using hb)] at hc
  exact absurd hc (by simp)

theorem View.Keep.dropMoved (h : w.Keep v) {p : ℕ} (hp : w.brk ≤ p) {b : BitVec 1024} (hb : BitsLe v.bitmap b)
    {index : ℕ} (hfree : v.bitmap.getLsbD index = false) {d : Block} :
    w.Keep ((v.move p b index d).setBitmap (bitmapClear b index)) := by
  have hle := h.bits.trans hb
  exact (h.move hp hle index d).setBitmap (hle.clear (not_of_bitsLe h.bits hfree))

theorem View.alloc_setData (v : View) (t : SwapTable) (d d' : Block) :
    (v.alloc ⟨t, some d⟩).setData v.brk d' = v.alloc ⟨t, some d'⟩ := by
  unfold View.setData
  rw [alloc_info_self]
  simp [View.alloc, View.setInfo, SwapInfo.strip]

/-- Dropping a mapping that is not in the list yet, after a failed `swap_write`. -/
theorem Wrote.drop {p start count : ℕ} {buf : ℕ → Sector} {r : Ret} (h : Wrote E s p start count buf r w)
    (hr : r ≠ .ok) (hk : v.Keep s.view) (hp : v.brk ≤ p)
    (hfree : v.bitmap.getLsbD (s.view.info p).table.index.toNat = false) :
    v.Keep (w.setBitmap (bitmapClear w.bitmap (w.info p).table.index.toNat)) := by
  cases h with
  | done hd => exact absurd rfl hr
  | @stuck _ b d _ hb =>
    have hi : (((s.view.setBitmap b).setData p d).info p).table.index = (s.view.info p).table.index := by
      unfold View.setData; rw [View.setInfo_info_self]; rfl
    have hle := hk.bits.trans hb
    rw [hi]
    exact ((hk.setBitmap hle).setInfo hp _).setBitmap (hle.clear hfree)
  | moved _ hb hi hfree' _ =>
    rw [move_index hi]
    exact hk.dropMoved hp hb hfree'
  | lost _ hb hi hfree' _ =>
    rw [move_index hi]
    exact hk.dropMoved hp hb hfree'
  | cut _ _ _ _ hb hi hfree' _ =>
    rw [move_index hi]
    exact hk.dropMoved hp hb hfree'

theorem copyIn_in {d : Block} {off n : ℕ} {buf : ℕ → Sector} {k : Fin 128} (h : off ≤ k.val ∧ k.val < off + n) :
    copyIn d off n buf k = buf (k - off) := if_pos h

theorem copyIn_out {d : Block} {off n : ℕ} {buf : ℕ → Sector} {k : Fin 128}
    (h : ¬ (off ≤ k.val ∧ k.val < off + n)) : copyIn d off n buf k = d k := if_neg h

section

variable {g : Seg} {src : ℕ → Sector} {s₁ s₂ s₃ : World} {b : BitVec 1024} {index : ℕ} {d : Block}

/-- What a round may write, when it makes a mapping. -/
abbrev RoundArea (v : View) (g : Seg) : ℕ → Prop := Within (v.Fit g) fun x => Reserved v.geom x ∨ g.area x

/-- The direct write of a round, if it is tried at all. -/
theorem directWrite_spec {c : Prop} [Decidable c] {done : Bool}
    (h : ((if c then hdWriteSectorRetry E .user g.sStart g.sCount src else return false) : SwapM Bool).run s =
      some (done, s')) :
    Dev (Within (s.view.Fit g) g.area) s s' ∧
      (done = true → s.view.Fit g → ∀ x, g.area x → s'.disk x = src (x - g.sStart)) := by
  split at h
  · refine ⟨(hdWriteSector_dev h).mono fun x hx hF => (hF.seg.cmdRange_iff hF.inv.geom.size x).1 hx, ?_⟩
    rintro rfl hF x hx
    rw [hdWriteSector_ok h x ((hF.seg.cmdRange_iff hF.inv.geom.size x).2 hx),
      Nat.mod_eq_of_lt (hF.seg.small hF.inv.geom.size).1]
  · obtain ⟨rfl, rfl⟩ := run_pure_iff.1 h
    exact ⟨Dev.refl _, by simp⟩

/-- A mapping made for the block of a segment that fits is placed. -/
theorem Made.fit (h : Made A s s₂ (swapSectorAlign g.sStart) b index d) (hF : s.view.Fit g) :
    s₂.view.Placed s.brk := by
  refine h.placed hF.inv ?_ (swapSectorAlign_mod _)
  rw [hF.seg.align]
  exact hF.seg.src

theorem enterArea_reserved {n x : ℕ} (hv : v.Inv) (hn : n ≤ v.list.length) (hx : TableArea v.geom (34 + n) x) :
    Reserved v.geom x := by
  refine hx.reserved hv.geom ?_
  have := hv.room
  simp only [maxSwapBlockForUse] at this
  omega

/-- The segment goes into the new mapping, which is entered in the list. -/
theorem writeCreated_ok (hn : s.view.find g.bStart = none)
    (hm : Made (RoundArea s.view g) s s₂ (swapSectorAlign g.sStart) b index d)
    (hc : s.view.Fit g → ∀ k : Fin 128, ¬ g.area (g.bStart + k) → CopyReads E g.bStart (g.bStart + k) →
      g.bStart + k < s.view.geom.reserve → d k = s.disk (g.bStart + k))
    (hw : (swapWrite E s.brk g.sStart g.sCount src).run s₂ = some (.ok, s₃)) {ok : Bool}
    (he : (enterCreated E s.brk).run s₃ = some (ok, s')) :
    ok = true ∧ WriteStep E s g src (if g.sCount < 128 then .dirty else .ok) s' := by
  obtain ⟨hkeep, hinfo⟩ := hm.entry
  obtain ⟨f1, f2, f3⟩ := hm.fresh
  obtain ⟨w, hw, hu3⟩ := swapWrite_spec hw
  obtain ⟨rfl, hent⟩ := enterCreated_spec he
  refine ⟨rfl, ?_⟩
  have hg2 : s₂.view.geom = s.view.geom := hkeep.geom
  have hu3' := hm.upd.trans (hu3.mono fun x hx hF => Or.inl (hg2 ▸ hx (hm.fit hF)))
  cases hw with
  | @done d' hd' =>
    obtain rfl : d' = d := by
      rw [hinfo] at hd'
      exact (Option.some.inj hd').symm
    have hview : s₃.view = (s.view.setBitmap b).alloc ⟨entryFor s.view.geom.data (swapSectorAlign g.sStart) index,
        some (copyIn d' (g.sStart - swapSectorAlign g.sStart) g.sCount src)⟩ := by
      rw [hu3.view, hm.upd.view]
      exact View.alloc_setData ..
    refine .created hn hm.room hm.bits f1 f2 f3 ?_ ?_ (hu3'.trans ?_)
      (d := copyIn d' (g.sStart - swapSectorAlign g.sStart) g.sCount src)
    · rintro hF k ⟨ha, hb⟩
      have hle := hF.seg.le
      rw [hF.seg.align, copyIn_in (by omega)]
      congr 1
      omega
    · intro hF k hk hreads huser
      have hle := hF.seg.le
      rw [hF.seg.align, copyIn_out (by unfold Seg.area at hk; omega)]
      exact hc hF k hk hreads huser
    · rw [hview] at hent
      exact hent.mono fun x hx hF => Or.inl (enterArea_reserved hF.inv le_rfl hx)

/-- The new mapping could not be written: it is dropped. -/
theorem writeCreated_drop (hn : s.view.find g.bStart = none)
    (hm : Made (RoundArea s.view g) s s₂ (swapSectorAlign g.sStart) b index d) {r : Ret} (hr : r ≠ .ok)
    (hw : (swapWrite E s.brk g.sStart g.sCount src).run s₂ = some (r, s₃)) {u : PUnit}
    (hd : (dropCreated s.brk).run s₃ = some (u, s')) : WriteStep E s g src .err s' := by
  obtain ⟨hkeep, hinfo⟩ := hm.entry
  obtain ⟨w, hw, hu3⟩ := swapWrite_spec hw
  have hg2 : s₂.view.geom = s.view.geom := hkeep.geom
  have hu3' := hm.upd.trans (hu3.mono fun x hx hF => Or.inl (hg2 ▸ hx (hm.fit hF)))
  rw [dropCreated_run hd]
  have e1 : s₃.core.head.bitmap = w.bitmap := hu3.bitmap
  have e2 : (s₃.heap s.brk).table.index = (w.info s.brk).table.index :=
    congrArg (fun i => i.table.index) (hu3.info s.brk)
  rw [e1, e2]
  exact .failed hn (hw.drop hr hkeep le_rfl hm.free) (hu3'.setBitmap _)

/-- The copies around the segment, seen from before the direct write. -/
theorem Copies.ofDirect (hd : Dev (Within (s.view.Fit g) g.area) s s₁)
    (hc : g.sStart + g.sCount ≤ swapSectorAlign g.sStart + 128 → swapSectorAlign g.sStart + 128 ≤ 2 ^ 32 →
      Copies E s₁ (swapSectorAlign g.sStart) (g.sStart - swapSectorAlign g.sStart) g.sCount d)
    (hF : s.view.Fit g) (k : Fin 128) (hk : ¬ g.area (g.bStart + k))
    (hreads : CopyReads E g.bStart (g.bStart + k)) (huser : g.bStart + k < s.view.geom.reserve) :
    d k = s.disk (g.bStart + k) := by
  have hle := hF.seg.le
  rw [hF.seg.align] at hc
  rw [(hc hF.seg.fit (hF.seg.small hF.inv.geom.size).2.2).copied k (by unfold Seg.area at hk; omega) hreads ?_]
  · exact hd.disk _ fun h => hk (h hF)
  · rw [hd.view]
    intro hfa
    have := (hfa.reserved hF.inv.geom).1
    omega

/-- **A round of `scsi_swap_core_write`** does one of the things `WriteStep` lists. -/
theorem coreWriteBlock_step {bad : ℤ} {buf : ℕ → Sector} {r : Ret}
    (h : (coreWriteBlock E bad g buf).run s = some (r, s')) :
    WriteStep E s g (fun k => buf (g.off + k)) r s' := by
  unfold coreWriteBlock at h
  rw [run_get_bind] at h
  dsimp only at h
  rw [find_view] at h
  split at h
  · -- mapped
    rename_i p hp
    obtain ⟨r', s₁, h1, h2⟩ := run_bind_iff.1 h
    obtain ⟨w, hw, hu⟩ := swapWrite_spec h1
    have hr : r = (if r' = .dirty ∧ 128 ≤ g.sCount then .ok else r') ∧ s' = s₁ := by
      cases r' with
      | ok => simpa using run_pure_iff.1 h2
      | err => simpa using run_pure_iff.1 h2
      | dirty =>
        dsimp only at h2
        split at h2
        · rename_i hc
          obtain ⟨rfl, rfl⟩ := run_pure_iff.1 h2
          exact ⟨by rw [if_neg (by omega)], rfl⟩
        · rename_i hc
          obtain ⟨rfl, rfl⟩ := run_pure_iff.1 h2
          exact ⟨by rw [if_pos ⟨rfl, by omega⟩], rfl⟩
    obtain ⟨rfl, rfl⟩ := hr
    exact .hit hp hw (hu.mono fun x hx hF => hx (hF.inv.placed (View.find_some hp).1))
  rename_i hn
  obtain ⟨done, s₁, h1, h2⟩ := run_bind_iff.1 h
  obtain ⟨hd1, hdisk⟩ := directWrite_spec h1
  have hd1' := hd1.mono (B := RoundArea s.view g) fun x hx hF => Or.inr (hx hF)
  rw [run_get_bind] at h2
  cases done with
  | true =>
    obtain ⟨rfl, rfl⟩ := run_pure_iff.1 h2
    exact .direct hn hd1 (hdisk rfl)
  | false =>
    rw [if_neg (by simp)] at h2
    split at h2
    · obtain ⟨rfl, rfl⟩ := run_pure_iff.1 h2
      exact .failed hn (View.Keep.refl _) hd1'
    obtain ⟨o, s₂, h3, h4⟩ := run_bind_iff.1 h2
    have harea : ∀ x, CreateArea s₁.view x → RoundArea s.view g x := by
      intro x hx hF
      rw [hd1.view] at hx
      exact Or.inl (createArea_reserved hF.inv.geom hx)
    obtain ⟨hres, hbrk⟩ := repairAndCreate_spec h3
    cases o with
    | none =>
      obtain ⟨rfl, rfl⟩ := run_pure_iff.1 h4
      obtain ⟨-, w, hk, hu⟩ := hres.resolve_right (by simp)
      rw [hd1.view] at hk
      exact .failed hn hk (hd1'.trans (hu.mono harea))
    | some p =>
      obtain ⟨-, b, index, d, hm, hc⟩ := hres.resolve_left (by simp)
      obtain rfl : p = s.brk := (hbrk p rfl).trans (congrArg View.brk hd1.view)
      have hm := (hm.mono harea).after hd1'
      dsimp only at h4
      obtain ⟨r', s₃, h5, h6⟩ := run_bind_iff.1 h4
      by_cases hr' : r' = .ok
      · subst hr'
        obtain ⟨ok, s₄, h7, h8⟩ := run_bind_iff.1 h6
        obtain ⟨rfl, hstep⟩ := writeCreated_ok hn hm (Copies.ofDirect hd1 hc) h5 h7
        rw [if_pos rfl] at h8
        split at h8
        · rename_i hlt
          obtain ⟨rfl, rfl⟩ := run_pure_iff.1 h8
          rwa [if_pos hlt] at hstep
        · rename_i hlt
          obtain ⟨rfl, rfl⟩ := run_pure_iff.1 h8
          rwa [if_neg hlt] at hstep
      · have h6' : ((do dropCreated s.brk; return Ret.err) : SwapM Ret).run s₃ = some (r, s') := by
          cases r' with
          | ok => exact absurd rfl hr'
          | err => exact h6
          | dirty => exact h6
        obtain ⟨u, s₄, h7, h8⟩ := run_bind_iff.1 h6'
        obtain ⟨rfl, rfl⟩ := run_pure_iff.1 h8
        exact writeCreated_drop hn hm hr' h5 h7

end

/-! ## A round of `scsi_swap_core_read` -/

/-- The buffer `buf` with the segment replaced by `f`. -/
def Seg.fill (g : Seg) (buf : ℕ → Sector) (f : ℕ → Sector) : ℕ → Sector :=
  fun k => if g.off ≤ k ∧ k < g.off + g.sCount then f (k - g.off) else buf k

theorem fillBuf_eq_fill (g : Seg) (buf : ℕ → Sector) (f : ℕ → Sector) {new : ℕ → Option Sector}
    (h1 : ∀ k < g.sCount, new k = some (f k)) (h2 : ∀ k, g.sCount ≤ k → new k = none) :
    fillBuf buf g.off new = g.fill buf f := by
  funext k
  unfold Seg.fill
  by_cases hk : g.off ≤ k
  · rw [fillBuf_of_le hk]
    by_cases hlt : k < g.off + g.sCount
    · rw [if_pos ⟨hk, hlt⟩, h1 _ (by omega), Option.getD_some]
    · rw [if_neg (by omega), h2 _ (by omega), Option.getD_none]
  · rw [fillBuf_of_lt (by omega), if_neg (by omega)]

/-- What a round of `scsi_swap_core_read` may have done. -/
inductive ReadStep (E : Env) (s : World) (g : Seg) (buf : ℕ → Sector) : Ret × (ℕ → Sector) → World → Prop
  /-- The block is mapped. -/
  | hit {p d} {buf' : ℕ → Sector} (hp : s.view.find g.bStart = some p) (hd : (s.view.info p).data = some d)
      (hbuf : s.view.Fit g → buf' = g.fill buf fun k => blockBuf d (g.sStart - g.bStart + k)) :
      ReadStep E s g buf (.ok, buf') s
  /-- The block is not mapped and the disk delivered. -/
  | direct {s' : World} {buf' : ℕ → Sector} (hn : s.view.find g.bStart = none) (hu : Dev (fun _ => False) s s')
      (hbuf : s.view.Fit g → buf' = g.fill buf fun k => s.disk (g.sStart + k)) : ReadStep E s g buf (.ok, buf') s'
  /-- The disk refused, and no mapping could be made. -/
  | failed {s' : World} {w buf'} (hn : s.view.find g.bStart = none) (hk : s.view.Keep w)
      (hu : Upd (Within (s.view.Fit g) (Reserved s.view.geom)) w s s') : ReadStep E s g buf (.err, buf') s'
  /-- A mapping was made, and delivered what it holds. -/
  | created {s' : World} {b index d} {buf₁ buf' : ℕ → Sector} (hn : s.view.find g.bStart = none)
      (hroom : s.view.num < maxSwapBlockForUse) (hb : BitsLe s.view.bitmap b) (hi : index < 1024)
      (hfree : s.view.bitmap.getLsbD index = false) (hbit : b.getLsbD index = true)
      (hseg : s.view.Fit g → ∀ k : Fin 128, g.area (g.bStart + k) → d k = zeroSector)
      (hout : s.view.Fit g → ∀ k, ¬ (g.off ≤ k ∧ k < g.off + g.sCount) → buf₁ k = buf k)
      (hbuf : s.view.Fit g → buf' = g.fill buf₁ fun k => blockBuf d (g.sStart - g.bStart + k))
      (hu : Upd (Within (s.view.Fit g) (Reserved s.view.geom))
        (s.view.create b (swapSectorAlign g.sStart) index d) s s') :
      ReadStep E s g buf (.dirty, buf') s'

theorem dataOffset_read {start : ℕ} :
    dataOffset start (swapSectorAlign start) = start - swapSectorAlign start := by
  have h1 := swapSectorAlign_le start
  have h2 := lt_swapSectorAlign_add start
  unfold dataOffset s32
  omega

section

variable {g : Seg} {s₁ s₂ s₃ : World} {b : BitVec 1024} {index : ℕ} {d : Block} {buf buf₁ : ℕ → Sector}

/-- The direct read of a round, if it is tried at all. -/
theorem directRead_spec {c : Prop} [Decidable c] {a : Bool × (ℕ → Sector)}
    (h : ((if c then (do
        let (ok, new) ← hdReadSectorRetry E g.sStart g.sCount
        return (ok, fillBuf buf g.off new)) else return (false, buf)) : SwapM (Bool × (ℕ → Sector))).run s =
      some (a, s')) :
    Dev (fun _ => False) s s' ∧
      (s.view.Fit g → ∀ k, ¬ (g.off ≤ k ∧ k < g.off + g.sCount) → a.2 k = buf k) ∧
      (a.1 = true → s.view.Fit g → a.2 = g.fill buf fun k => s.disk (g.sStart + k)) := by
  split at h
  · obtain ⟨⟨ok, new⟩, t, h3, h4⟩ := run_bind_iff.1 h
    obtain ⟨rfl, rfl⟩ := run_pure_iff.1 h4
    have hnone : s.view.Fit g → ∀ k, g.sCount ≤ k → new k = none := by
      intro hF k hk
      refine hdReadSector_none h3 k ?_
      rw [Nat.mod_eq_of_lt (hF.seg.small hF.inv.geom.size).2.1]
      exact hk
    refine ⟨hdReadSector_dev h3, ?_, ?_⟩
    · intro hF k hk
      by_cases hko : g.off ≤ k
      · exact (fillBuf_of_le hko).trans (by rw [hnone hF _ (by omega), Option.getD_none])
      · exact fillBuf_of_lt (by omega)
    · intro hok hF
      obtain ⟨hs1, hs2, -⟩ := hF.seg.small hF.inv.geom.size
      have := hdReadSector_ok h3 (Or.inl hok)
      rw [Nat.mod_eq_of_lt hs1, Nat.mod_eq_of_lt hs2] at this
      exact fillBuf_eq_fill g buf _ this (hnone hF)
  · obtain ⟨rfl, rfl⟩ := run_pure_iff.1 h
    exact ⟨Dev.refl _, fun _ _ _ => rfl, by simp⟩

/-- What a new mapping delivers. -/
theorem fillBuf_created (hF : s.view.Fit g) :
    (fillBuf buf₁ g.off fun k =>
        if k < min g.sCount 128 then some (blockBuf d (u32 ((g.sStart : ℤ) - g.bStart) + k)) else none) =
      g.fill buf₁ fun k => blockBuf d (g.sStart - g.bStart + k) := by
  have hle := hF.seg.le
  have hfit := hF.seg.fit
  have hlt := hF.seg.lt
  have hu32 : u32 ((g.sStart : ℤ) - g.bStart) = g.sStart - g.bStart := by unfold u32; omega
  rw [hu32, show min g.sCount 128 = g.sCount by omega]
  exact fillBuf_eq_fill g buf₁ (fun k => blockBuf d (g.sStart - g.bStart + k))
    (fun k hk => if_pos hk) (fun k hk => if_neg (by omega))

/-- The new mapping could not be saved: it is dropped. -/
theorem readCreated_drop (hn : s.view.find g.bStart = none)
    (hm : Made (Within (s.view.Fit g) (Reserved s.view.geom)) s s₂ (swapSectorAlign g.sStart) b index d)
    (hf : Dev (Within (s.view.Fit g) (Reserved s.view.geom)) s₂ s₃) {u : PUnit}
    (hd : (dropCreated s.brk).run s₃ = some (u, s')) : ReadStep E s g buf (.err, buf₁) s' := by
  obtain ⟨hkeep, hinfo⟩ := hm.entry
  rw [dropCreated_run hd]
  have e1 : s₃.core.head.bitmap = b := (congrArg View.bitmap hf.view).trans (congrArg View.bitmap hm.upd.view)
  have e2 : (s₃.heap s.brk).table.index.toNat = index := by
    have e3 : (s₃.heap s.brk).strip = s₂.view.info s.brk := hf.info _
    rw [hinfo] at e3
    exact (congrArg (fun i => i.table.index.toNat) e3).trans (entryFor_index hm.fresh.1)
  rw [e1, e2]
  rw [hm.upd.view] at hkeep
  exact .failed hn (hkeep.setBitmap (hm.bits.clear hm.fresh.2.1)) ((hm.upd.dev hf).setBitmap _)

/-- **A round of `scsi_swap_core_read`** does one of the things `ReadStep` lists. -/
theorem coreReadBlock_step {bad : ℤ} {r : Ret × (ℕ → Sector)}
    (h : (coreReadBlock E bad g buf).run s = some (r, s')) : ReadStep E s g buf r s' := by
  unfold coreReadBlock at h
  rw [run_get_bind, find_view] at h
  split at h
  · -- mapped
    rename_i p hp
    obtain ⟨buf', s₁, h1, h2⟩ := run_bind_iff.1 h
    obtain ⟨rfl, rfl⟩ := run_pure_iff.1 h2
    unfold swapRead' at h1
    rw [run_get_bind] at h1
    split at h1
    · exact (run_oops h1).elim
    rename_i d hd
    obtain ⟨rfl, rfl⟩ := run_pure_iff.1 h1
    refine .hit hp hd fun hF => ?_
    rw [dataOffset_read, hF.seg.align, fillBuf_eq_fill g buf (fun k => blockBuf d (g.sStart - g.bStart + k))]
    · intro k hk; rw [if_pos hk]
    · intro k hk; rw [if_neg (by omega)]
  rename_i hn
  obtain ⟨⟨done, buf₁⟩, s₁, h1, h2⟩ := run_bind_iff.1 h
  obtain ⟨hd1, hout, hin⟩ := directRead_spec h1
  have hd1' := hd1.mono (B := Within (s.view.Fit g) (Reserved s.view.geom)) fun _ => False.elim
  rw [run_get_bind] at h2
  cases done with
  | true =>
    obtain ⟨rfl, rfl⟩ := run_pure_iff.1 h2
    exact .direct hn hd1 (hin rfl)
  | false =>
    dsimp only at h2
    rw [if_neg (by simp)] at h2
    split at h2
    · obtain ⟨rfl, rfl⟩ := run_pure_iff.1 h2
      exact .failed hn (View.Keep.refl _) hd1'
    obtain ⟨o, s₂, h3, h4⟩ := run_bind_iff.1 h2
    have harea : ∀ x, CreateArea s₁.view x → Within (s.view.Fit g) (Reserved s.view.geom) x := by
      intro x hx hF
      rw [hd1.view] at hx
      exact createArea_reserved hF.inv.geom hx
    obtain ⟨hres, hbrk⟩ := repairAndCreate_spec h3
    cases o with
    | none =>
      obtain ⟨rfl, rfl⟩ := run_pure_iff.1 h4
      obtain ⟨-, w, hk, hu⟩ := hres.resolve_right (by simp)
      rw [hd1.view] at hk
      exact .failed hn hk (hd1'.trans (hu.mono harea))
    | some p =>
      -- a mapping was made: it is copied out, saved, and entered in the list
      obtain ⟨-, b, index, d, hm, hc⟩ := hres.resolve_left (by simp)
      obtain rfl : p = s.brk := (hbrk p rfl).trans (congrArg View.brk hd1.view)
      have hm := (hm.mono harea).after hd1'
      obtain ⟨hkeep, hinfo⟩ := hm.entry
      have hg2 : s₂.view.geom = s.view.geom := hkeep.geom
      dsimp only at h4
      rw [run_get_bind] at h4
      have hdata : (s₂.heap s.brk).data = some d := congrArg SwapInfo.data hinfo
      rw [hdata] at h4
      dsimp only at h4
      obtain ⟨ok, s₃, h5, h6⟩ := run_bind_iff.1 h4
      have hf := (flushSwapInfoData_dev h5).mono (B := Within (s.view.Fit g) (Reserved s.view.geom))
        fun x hx hF => hg2 ▸ (hm.fit hF).map hx
      cases ok with
      | true =>
        rw [if_pos rfl] at h6
        obtain ⟨ok, s₄, h7, h8⟩ := run_bind_iff.1 h6
        obtain ⟨rfl, hent⟩ := enterCreated_spec h7
        obtain ⟨rfl, rfl⟩ := run_pure_iff.1 h8
        have hu3 := hm.upd.dev hf
        rw [hu3.view] at hent
        obtain ⟨f1, f2, f3⟩ := hm.fresh
        refine .created hn hm.room hm.bits f1 f2 f3 ?_ hout fillBuf_created (hu3.trans ?_)
        · rintro hF k ⟨ha, hb⟩
          have hle := hF.seg.le
          rw [hF.seg.align] at hc
          exact (hc hF.seg.fit (hF.seg.small hF.inv.geom.size).2.2).zero k (by omega) (by omega)
        · exact hent.mono fun x hx hF => enterArea_reserved hF.inv le_rfl hx
      | false =>
        rw [if_neg (by simp)] at h6
        obtain ⟨u, s₄, h7, h8⟩ := run_bind_iff.1 h6
        obtain ⟨rfl, rfl⟩ := run_pure_iff.1 h8
        exact readCreated_drop hn hm hf h7

end

end ScsiSwap
