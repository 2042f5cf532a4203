import ScsiSwap.Proof.Segments
import ScsiSwap.Spec.Session

/-!
# What requests do to the logical contents

`serve_served`: for a request below the reserve, whatever the device does, blocks it does not
touch keep their contents; a write that returns 0 or `-DATA_MAY_DIRTY` has stored its data; a
request that returns 0 changes nothing but the range it writes; and a read that returns 0
delivers the contents. The proof goes from the rounds (`WriteStep`, `ReadStep`) over the loops
to whole requests.
-/

namespace ScsiSwap

open StateOption ByteCodec

variable {E : Env} {s s' : World} {v w : View}

/-! ## Contents of a memory and a disk -/

def View.contents (v : View) (disk : ℕ → Sector) (x : ℕ) : Sector :=
  match v.find (swapSectorAlign x) with
  | some p => match (v.info p).data with
    | some d => blockBuf d (x - swapSectorAlign x)
    | none => zeroSector
  | none => disk x

theorem contents_view (x : ℕ) : s.contents x = s.view.contents s.disk x := rfl

theorem View.contents_mapped {disk : ℕ → Sector} {x p : ℕ} {d : Block}
    (hp : v.find (swapSectorAlign x) = some p) (hd : (v.info p).data = some d) :
    v.contents disk x = blockBuf d (x - swapSectorAlign x) := by
  unfold View.contents
  rw [hp]
  dsimp only
  rw [hd]

theorem View.contents_unmapped {disk : ℕ → Sector} {x : ℕ} (hn : v.find (swapSectorAlign x) = none) :
    v.contents disk x = disk x := by
  unfold View.contents
  rw [hn]

/-- Contents see one mapping, or one sector. -/
theorem View.contents_congr {disk disk' : ℕ → Sector} {x : ℕ}
    (hf : w.find (swapSectorAlign x) = v.find (swapSectorAlign x))
    (hi : ∀ p, v.find (swapSectorAlign x) = some p → (w.info p).data = (v.info p).data)
    (hd : v.find (swapSectorAlign x) = none → disk' x = disk x) :
    w.contents disk' x = v.contents disk x := by
  unfold View.contents
  rw [hf]
  cases hp : v.find (swapSectorAlign x) with
  | none => exact hd hp
  | some p => dsimp only; rw [hi p hp]

theorem blockBuf_offset (d : Block) (x : ℕ) :
    ∃ k : Fin 128, blockBuf d (x - swapSectorAlign x) = d k ∧ swapSectorAlign x + k.val = x := by
  have h1 := swapSectorAlign_le x
  have h2 := lt_swapSectorAlign_add x
  refine ⟨⟨x - swapSectorAlign x, by omega⟩, dif_pos (by omega), ?_⟩
  show swapSectorAlign x + (x - swapSectorAlign x) = x
  omega

/-! ## Lookup after a step -/

/-- `w` is `v` with the mapping at `p` changed, its source apart. -/
structure View.SameBut (v w : View) (p : ℕ) : Prop where
  geom : w.geom = v.geom
  list : w.list = v.list
  num : w.num = v.num
  brk : w.brk = v.brk
  src : (w.info p).table.srcSec = (v.info p).table.srcSec
  info : ∀ q, q ≠ p → w.info q = v.info q

theorem View.SameBut.find {p : ℕ} (h : v.SameBut w p) (x : ℕ) : w.find x = v.find x := by
  refine View.find_congr h.list ?_ x
  intro q _
  by_cases hq : q = p
  · rw [hq]; exact h.src
  · rw [h.info q hq]

theorem View.setInfo_sameBut {p : ℕ} {i : SwapInfo} (hs : i.table.srcSec = (v.info p).table.srcSec)
    (b : BitVec 1024) : v.SameBut ((v.setBitmap b).setInfo p i) p :=
  ⟨rfl, rfl, rfl, rfl, by rw [View.setInfo_info_self]; exact hs, fun _ hq => View.setInfo_info_of_ne _ _ hq⟩

theorem View.setData_sameBut (v : View) (p : ℕ) (b : BitVec 1024) (d : Block) :
    v.SameBut ((v.setBitmap b).setData p d) p :=
  View.setInfo_sameBut (i := ⟨(v.info p).table, some d⟩) rfl b

theorem View.move_sameBut (v : View) (p : ℕ) (b : BitVec 1024) (index : ℕ) (d : Block) :
    v.SameBut (v.move p b index d) p :=
  View.setInfo_sameBut (i := ⟨(v.info p).table.assign v.geom.data index, some d⟩) rfl b

theorem View.setData_contents {p x : ℕ} (hp : v.find (swapSectorAlign x) = some p) (d : Block)
    (disk : ℕ → Sector) : (v.setData p d).contents disk x = blockBuf d (x - swapSectorAlign x) := by
  have hf : (v.setData p d).find (swapSectorAlign x) = some p :=
    ((v.setData_sameBut p v.bitmap d).find _).trans hp
  refine View.contents_mapped hf ?_
  unfold View.setData
  rw [View.setInfo_info_self]
  rfl

theorem Wrote.sameBut {p start count : ℕ} {buf : ℕ → Sector} {r : Ret} (h : Wrote E s p start count buf r w) :
    s.view.SameBut w p := by
  cases h with
  | done hd => exact s.view.setData_sameBut p s.view.bitmap _
  | stuck _ _ => exact s.view.setData_sameBut p _ _
  | moved _ _ _ _ _ => exact s.view.move_sameBut p _ _ _
  | lost _ _ _ _ _ => exact s.view.move_sameBut p _ _ _
  | cut _ _ _ _ _ _ _ _ => exact s.view.move_sameBut p _ _ _

theorem Wrote.bits {p start count : ℕ} {buf : ℕ → Sector} {r : Ret} (h : Wrote E s p start count buf r w) :
    BitsLe s.view.bitmap w.bitmap := by
  cases h with
  | done hd => exact BitsLe.refl _
  | stuck _ hb => exact hb
  | moved _ hb _ _ _ => exact hb
  | lost _ hb _ _ _ => exact hb
  | cut _ _ _ _ hb _ _ _ => exact hb

theorem Wrote.inv {p start count : ℕ} {buf : ℕ → Sector} {r : Ret} (h : Wrote E s p start count buf r w)
    (hv : s.view.Inv) (hp : p ∈ s.view.list) : w.Inv := by
  cases h with
  | done hd => exact hv.setData hp _
  | @stuck _ b _ _ _ => exact View.Inv.setData (hv.setBitmap b) hp _
  | moved _ _ hi _ _ => exact hv.move hp _ hi _
  | lost _ _ hi _ _ => exact hv.move hp _ hi _
  | cut _ _ _ _ _ hi _ _ => exact hv.move hp _ hi _

/-- A `swap_write` that did not fail left the data in the mapping. -/
theorem Wrote.data {p start count : ℕ} {buf : ℕ → Sector} {r : Ret} (h : Wrote E s p start count buf r w)
    (hr : r ≠ .err) : ∃ d, (w.info p).data = some (copyIn d (start - swapSectorAlign start) count buf) := by
  cases h with
  | @done d hd => exact ⟨d, by unfold View.setData; rw [View.setInfo_info_self]; rfl⟩
  | stuck _ _ => exact absurd rfl hr
  | @moved _ _ _ d _ _ _ _ _ => exact ⟨d, by unfold View.move; rw [View.setInfo_info_self]; rfl⟩
  | lost _ _ _ _ _ => exact absurd rfl hr
  | cut _ _ _ _ _ _ _ _ => exact absurd rfl hr

theorem View.Keep.find (h : v.Keep w) (hv : v.Inv) (x : ℕ) : w.find x = v.find x := by
  refine View.find_congr h.list ?_ x
  intro p hp
  rw [h.info p (hv.old p hp)]

theorem View.Keep.contents (h : v.Keep w) (hv : v.Inv) {disk disk' : ℕ → Sector} {x : ℕ}
    (hd : v.find (swapSectorAlign x) = none → disk' x = disk x) :
    w.contents disk' x = v.contents disk x := by
  refine View.contents_congr (h.find hv _) ?_ hd
  intro p hp
  rw [h.info p (hv.old p (View.find_some hp).1)]

/-! ### A created mapping -/

theorem View.create_info_old (v : View) (b : BitVec 1024) (src index : ℕ) (d : Block) {p : ℕ} (hp : p < v.brk) :
    (v.create b src index d).info p = v.info p :=
  View.setInfo_info_of_ne _ _ (by show p ≠ v.brk; omega)

theorem View.create_info_new (v : View) (b : BitVec 1024) (src index : ℕ) (d : Block) :
    (v.create b src index d).info v.brk = SwapInfo.strip ⟨entryFor v.geom.data src index, some d⟩ :=
  View.setInfo_info_self ..

theorem entryFor_src {sectorData src index : ℕ} (h : src < 2 ^ 64) :
    (entryFor sectorData src index).srcSec.toNat = src := by
  show (BitVec.ofNat 64 src).toNat = src
  rw [BitVec.toNat_ofNat, Nat.mod_eq_of_lt h]

theorem View.create_find (hv : v.Inv) {b : BitVec 1024} {src index : ℕ} {d : Block} (hsrc : src < 2 ^ 64)
    (x : ℕ) : (v.create b src index d).find x = (v.find x).or (if x = src then some v.brk else none) := by
  have hnew : ((v.create b src index d).info v.brk).table.srcSec.toNat = src := by
    rw [View.create_info_new]; exact entryFor_src hsrc
  have hl : (v.create b src index d).list = v.list ++ [v.brk] := rfl
  unfold View.find
  rw [hl, List.find?_append]
  congr 1
  · refine List.find?_congr ?_
    intro p hp
    rw [View.create_info_old _ _ _ _ _ (hv.old p hp)]
  · rw [List.find?_singleton, hnew]
    by_cases hx : x = src
    · subst hx; simp
    · simp [hx, Ne.symm hx]

theorem View.Inv.created (hv : v.Inv) {b : BitVec 1024} {src index : ℕ} {d : Block} (hb : BitsLe v.bitmap b)
    (hroom : v.num < maxSwapBlockForUse) (hi : index < 1024) (hsrc : src < v.geom.reserve)
    (hal : src % 128 = 0) (hn : v.find src = none) : (v.create b src index d).Inv :=
  hv.create (((View.Keep.refl v).setBitmap hb).alloc _) hroom hi hsrc hal hn le_rfl (Nat.lt_succ_self _)
    (View.setInfo_info_self ..)

theorem View.create_contents (hv : v.Inv) {b : BitVec 1024} {src index : ℕ} {d : Block} (hsrc : src < 2 ^ 64)
    (hn : v.find src = none) {disk : ℕ → Sector} {x : ℕ} (hx : swapSectorAlign x = src) :
    (v.create b src index d).contents disk x = blockBuf d (x - src) := by
  have hf : (v.create b src index d).find (swapSectorAlign x) = some v.brk := by
    rw [View.create_find hv hsrc, hx, hn, if_pos rfl, Option.none_or]
  have hd : ((v.create b src index d).info v.brk).data = some d := by rw [View.create_info_new]; rfl
  rw [View.contents_mapped hf hd, hx]

theorem View.create_contents_other (hv : v.Inv) {b : BitVec 1024} {src index : ℕ} {d : Block}
    (hsrc : src < 2 ^ 64) {disk disk' : ℕ → Sector} {x : ℕ} (hx : swapSectorAlign x ≠ src)
    (hd : v.find (swapSectorAlign x) = none → disk' x = disk x) :
    (v.create b src index d).contents disk' x = v.contents disk x := by
  refine View.contents_congr ?_ ?_ hd
  · rw [View.create_find hv hsrc, if_neg hx, Option.or_none]
  · intro q hq
    rw [View.create_info_old _ _ _ _ _ (hv.old q (View.find_some hq).1)]

/-! ## A round of a write -/

theorem WriteStep.inv {g : Seg} {src : ℕ → Sector} {r : Ret} (h : WriteStep E s g src r s') (hv : s.view.Inv)
    (hg : g.Ok s.view.geom.reserve) : s'.view.Inv ∧ s'.view.geom = s.view.geom := by
  cases h with
  | hit hp hw hu =>
    rw [hu.view]
    exact ⟨hw.inv hv (View.find_some hp).1, hw.sameBut.geom⟩
  | direct hn hu hd => rw [hu.view]; exact ⟨hv, rfl⟩
  | failed hn hk hu => rw [hu.view]; exact ⟨hv.keep hk, hk.geom⟩
  | created hn hroom hb hi hfree hbit hseg hcopy hu =>
    rw [hu.view, hg.align]
    exact ⟨hv.created hb hroom hi hg.src hg.aligned hn, rfl⟩

/-- A user sector is not in the reserve. -/
theorem not_reserved {g : Geom} {x : ℕ} (hx : x < g.reserve) : ¬ Reserved g x := by
  unfold Reserved; omega

theorem Seg.Ok.block_of_area {g : Seg} {R x : ℕ} (hg : g.Ok R) (hx : g.area x) :
    swapSectorAlign x = g.bStart := by
  obtain ⟨h1, h2, h3, h4, -, -⟩ := hg
  obtain ⟨h5, h6⟩ := hx
  unfold swapSectorAlign swapBlockIndex
  omega

/-- Other blocks keep their contents. -/
theorem WriteStep.frame {g : Seg} {src : ℕ → Sector} {r : Ret} (h : WriteStep E s g src r s') (hv : s.view.Inv)
    (hg : g.Ok s.view.geom.reserve) {x : ℕ} (hx : x < s.view.geom.reserve) (hb : swapSectorAlign x ≠ g.bStart) :
    s'.contents x = s.contents x := by
  have hF : s.view.Fit g := ⟨hv, hg⟩
  have hres := not_reserved hx
  have hout : ¬ g.area x := fun ha => hb (hg.block_of_area ha)
  rw [contents_view, contents_view]
  cases h with
  | hit hp hw hu =>
    rw [hu.view]
    refine View.contents_congr (hw.sameBut.find _) ?_ fun _ => (hu.within hF).disk x hres
    intro q hq
    -- the mapping of another block is another mapping
    rw [hw.sameBut.info q]
    rintro rfl
    exact hb ((View.find_some hq).2.symm.trans (View.find_some hp).2)
  | direct hn hu hd =>
    rw [hu.view]
    exact View.contents_congr rfl (fun _ _ => rfl) fun _ => (hu.within hF).disk x hout
  | failed hn hk hu =>
    rw [hu.view]
    exact hk.contents hv fun _ => (hu.within hF).disk x (by rintro (h | h); exacts [hres h, hout h])
  | created hn hroom hb' hi hfree hbit hseg hcopy hu =>
    have hs := hv.geom.size
    have hsrc := hg.src
    rw [hu.view, hg.align]
    exact View.create_contents_other hv (by omega) hb
      fun _ => (hu.within hF).disk x (by rintro (h | h); exacts [hres h, hout h])

/-- A round that did not fail left its data. -/
theorem WriteStep.wrote {g : Seg} {src : ℕ → Sector} {r : Ret} (h : WriteStep E s g src r s') (hv : s.view.Inv)
    (hg : g.Ok s.view.geom.reserve) (hr : r ≠ .err) {x : ℕ} (hx : g.area x) :
    s'.contents x = src (x - g.sStart) := by
  have hb := hg.block_of_area hx
  have hx' := hx
  obtain ⟨hx1, hx2⟩ := hx'
  have hle := hg.le
  rw [contents_view]
  cases h with
  | @hit _ p r' w hp hw hu =>
    have hr' : r' ≠ .err := by
      rintro rfl
      exact hr (by simp)
    obtain ⟨d, hd⟩ := hw.data hr'
    rw [hg.align] at hd
    have hf : w.find (swapSectorAlign x) = some p := by rw [hw.sameBut.find, hb, hp]
    rw [hu.view, View.contents_mapped hf hd]
    obtain ⟨k, hk, hkx⟩ := blockBuf_offset (copyIn d (g.sStart - g.bStart) g.sCount src) x
    rw [hb] at hk hkx
    rw [hb, hk, copyIn_in (by omega)]
    congr 1
    omega
  | direct hn hu hd =>
    rw [hu.view, View.contents_unmapped (by rw [hb]; exact hn)]
    exact hd ⟨hv, hg⟩ x hx
  | failed hn hk hu => exact absurd rfl hr
  | @created _ b index d hn hroom hb' hi hfree hbit hseg hcopy hu =>
    have hs := hv.geom.size
    have hsrc := hg.src
    rw [hu.view, hg.align, View.create_contents hv (by omega) hn hb]
    obtain ⟨k, hk, hkx⟩ := blockBuf_offset d x
    rw [hb] at hk hkx
    rw [hk, hseg ⟨hv, hg⟩ k (by rw [hkx]; exact hx), hkx]

/-- A round that returned 0 changed nothing but its segment. -/
theorem WriteStep.ok_frame {g : Seg} {src : ℕ → Sector} (h : WriteStep E s g src .ok s') (hv : s.view.Inv)
    (hg : g.Ok s.view.geom.reserve) {x : ℕ} (hx : x < s.view.geom.reserve) (hout : ¬ g.area x) :
    s'.contents x = s.contents x := by
  by_cases hb : swapSectorAlign x = g.bStart
  swap
  · exact h.frame hv hg hx hb
  have hF : s.view.Fit g := ⟨hv, hg⟩
  have hle := hg.le
  have hfit := hg.fit
  -- only part of the block was written, so the mapping is an old one and did not move
  have hpart : g.sCount < 128 := by
    by_contra hfull
    refine hout ?_
    have h1 := swapSectorAlign_le x
    have h2 := lt_swapSectorAlign_add x
    unfold Seg.area
    omega
  rw [contents_view, contents_view]
  generalize hr : Ret.ok = r at h
  cases h with
  | @hit _ p r' w hp hw hu =>
    rw [if_neg (by omega)] at hr
    subst hr
    cases hw with
    | @done d hd =>
      rw [← hb] at hp
      rw [hu.view, View.setData_contents hp, View.contents_mapped hp hd]
      obtain ⟨k, hk, hkx⟩ := blockBuf_offset (copyIn d (g.sStart - swapSectorAlign g.sStart) g.sCount src) x
      obtain ⟨k', hk', hkx'⟩ := blockBuf_offset d x
      have hkk : k' = k := Fin.ext (by omega)
      unfold Seg.area at hout
      rw [hk, hk', hkk, copyIn_out (by rw [hg.align]; omega)]
  | direct hn hu hd =>
    rw [hu.view]
    exact View.contents_congr rfl (fun _ _ => rfl) fun _ => (hu.within hF).disk x hout
  | failed hn hk hu => exact absurd hr (by simp)
  | created hn hroom hb' hi hfree hbit hseg hcopy hu => rw [if_pos hpart] at hr; exact absurd hr (by simp)

/-! ## A round of a read -/

theorem ReadStep.inv {g : Seg} {buf : ℕ → Sector} {r : Ret × (ℕ → Sector)} (h : ReadStep E s g buf r s')
    (hv : s.view.Inv) (hg : g.Ok s.view.geom.reserve) : s'.view.Inv ∧ s'.view.geom = s.view.geom := by
  cases h with
  | hit hp hd hbuf => exact ⟨hv, rfl⟩
  | direct hn hu hbuf => rw [hu.view]; exact ⟨hv, rfl⟩
  | failed hn hk hu => rw [hu.view]; exact ⟨hv.keep hk, hk.geom⟩
  | created hn hroom hb hi hfree hbit hseg hout hbuf hu =>
    rw [hu.view, hg.align]
    exact ⟨hv.created hb hroom hi hg.src hg.aligned hn, rfl⟩

/-- Other blocks keep their contents; so does the block read, unless a mapping was made. -/
theorem ReadStep.frame {g : Seg} {buf : ℕ → Sector} {r : Ret × (ℕ → Sector)} (h : ReadStep E s g buf r s')
    (hv : s.view.Inv) (hg : g.Ok s.view.geom.reserve) {x : ℕ} (hx : x < s.view.geom.reserve)
    (hb : r.1 = .dirty → swapSectorAlign x ≠ g.bStart) : s'.contents x = s.contents x := by
  have hF : s.view.Fit g := ⟨hv, hg⟩
  have hres := not_reserved hx
  rw [contents_view, contents_view]
  cases h with
  | hit hp hd hbuf => rfl
  | direct hn hu hbuf =>
    rw [hu.view]
    exact View.contents_congr rfl (fun _ _ => rfl) fun _ => hu.disk x id
  | failed hn hk hu => rw [hu.view]; exact hk.contents hv fun _ => (hu.within hF).disk x hres
  | created hn hroom hb' hi hfree hbit hseg hout hbuf hu =>
    have hs := hv.geom.size
    have hsrc := hg.src
    rw [hu.view, hg.align]
    exact View.create_contents_other hv (by omega) (hb rfl) fun _ => (hu.within hF).disk x hres

/-- A round that returned 0 delivered the contents of its segment. -/
theorem ReadStep.read {g : Seg} {buf buf' : ℕ → Sector} (h : ReadStep E s g buf (.ok, buf') s')
    (hv : s.view.Inv) (hg : g.Ok s.view.geom.reserve) {x : ℕ} (hx : g.area x) :
    buf' (g.off + (x - g.sStart)) = s.contents x := by
  have hb := hg.block_of_area hx
  have hle := hg.le
  obtain ⟨hx1, hx2⟩ := hx
  have hwin : g.off ≤ g.off + (x - g.sStart) ∧ g.off + (x - g.sStart) < g.off + g.sCount := by omega
  rw [contents_view]
  cases h with
  | hit hp hd hbuf =>
    rw [View.contents_mapped (by rw [hb]; exact hp) hd, hbuf ⟨hv, hg⟩]
    unfold Seg.fill
    rw [if_pos hwin, hb]
    dsimp only
    congr 1
    omega
  | direct hn hu hbuf =>
    rw [View.contents_unmapped (by rw [hb]; exact hn), hbuf ⟨hv, hg⟩]
    unfold Seg.fill
    rw [if_pos hwin]
    dsimp only
    congr 1
    omega

/-- A round that did not fail left the rest of the buffer alone. -/
theorem ReadStep.buffer {g : Seg} {buf : ℕ → Sector} {r : Ret × (ℕ → Sector)} (h : ReadStep E s g buf r s')
    (hv : s.view.Inv) (hg : g.Ok s.view.geom.reserve) (hr : r.1 ≠ .err) {k : ℕ}
    (hk : ¬ (g.off ≤ k ∧ k < g.off + g.sCount)) : r.2 k = buf k := by
  cases h with
  | hit hp hd hbuf => exact (congrFun (hbuf ⟨hv, hg⟩) k).trans (if_neg hk)
  | direct hn hu hbuf => exact (congrFun (hbuf ⟨hv, hg⟩) k).trans (if_neg hk)
  | failed hn hk hu => exact absurd rfl hr
  | created hn hroom hb hi hfree hbit hseg hout hbuf hu =>
    exact (congrFun (hbuf ⟨hv, hg⟩) k).trans ((if_neg hk).trans (hout ⟨hv, hg⟩ k hk))

/-! ## The loops -/

/-- Segments of one request: in distinct blocks, and each at its place in the buffer. -/
structure SegsOk (gs : List Seg) (start R : ℕ) : Prop where
  ok : ∀ g ∈ gs, g.Ok R
  place : ∀ g ∈ gs, g.sStart = start + g.off
  distinct : gs.Pairwise fun g h => g.bStart ≠ h.bStart

theorem SegsOk.tail {g : Seg} {gs : List Seg} {start R : ℕ} (h : SegsOk (g :: gs) start R) : SegsOk gs start R :=
  ⟨fun g hg => h.ok g (List.mem_cons_of_mem _ hg), fun g hg => h.place g (List.mem_cons_of_mem _ hg),
    (List.pairwise_cons.1 h.distinct).2⟩

theorem segmentsFrom_ok {start count R i n : ℕ} (h : Fits start count R) (hn : i + n = blockCount start count) :
    SegsOk (segmentsFrom start count i n) start R := by
  have hmem : ∀ g ∈ segmentsFrom start count i n, ∃ j < blockCount start count, segment start count j = g := by
    intro g hg
    obtain ⟨j, hj, rfl⟩ := List.mem_map.1 hg
    rw [List.mem_range'_1] at hj
    exact ⟨j, by omega, rfl⟩
  refine ⟨?_, ?_, ?_⟩
  · intro g hg
    obtain ⟨j, hj, rfl⟩ := hmem g hg
    exact segment_ok h hj
  · intro g hg
    obtain ⟨j, hj, rfl⟩ := hmem g hg
    obtain ⟨-, -, hs, -⟩ := segStart_bounds hj
    simp only [segment]
    omega
  · unfold segmentsFrom
    rw [List.pairwise_map]
    have hnd : (List.range' i n).Nodup := List.nodup_range'
    refine hnd.imp ?_
    intro a b hab
    simp only [segment]
    omega

theorem SegsOk.other {g h : Seg} {gs : List Seg} {start R x : ℕ} (hs : SegsOk (g :: gs) start R)
    (hh : h ∈ gs) (hx : h.area x) : swapSectorAlign x ≠ g.bStart := by
  rw [(hs.ok h (List.mem_cons_of_mem _ hh)).block_of_area hx]
  exact ((List.pairwise_cons.1 hs.distinct).1 h hh).symm

theorem Ret.join_ok {a b : Ret} (h : a.join b = .ok) (ha : a ≠ .err) : a = .ok ∧ b = .ok := by
  cases a <;> cases b <;> simp_all [Ret.join]

theorem Ret.join_err {a b : Ret} (h : a.join b ≠ .err) : b ≠ .err := by
  cases a <;> cases b <;> simp_all [Ret.join]

/-- What the write loop does to the contents, over the segments `gs`. -/
structure WriteEffect (s s' : World) (gs : List Seg) (buf : ℕ → Sector) (r : Ret) : Prop where
  inv : s'.view.Inv
  geom : s'.view.geom = s.view.geom
  frame : ∀ x < s.view.geom.reserve, (∀ g ∈ gs, swapSectorAlign x ≠ g.bStart) → s'.contents x = s.contents x
  wrote : r ≠ .err → ∀ g ∈ gs, ∀ x, g.area x → s'.contents x = buf (g.off + (x - g.sStart))
  ok : r = .ok → ∀ x < s.view.geom.reserve, (∀ g ∈ gs, ¬ g.area x) → s'.contents x = s.contents x

theorem writeSegs_effect {bad : ℤ} {buf : ℕ → Sector} {start : ℕ} : ∀ {gs : List Seg} {s s' : World} {r : Ret},
    (writeSegs E bad buf gs).run s = some (r, s') → s.view.Inv → SegsOk gs start s.view.geom.reserve →
      WriteEffect s s' gs buf r := by
  intro gs
  induction gs with
  | nil =>
    intro s s' r h hv _
    obtain ⟨rfl, rfl⟩ := run_pure_iff.1 h
    exact ⟨hv, rfl, fun _ _ _ => rfl, fun _ g hg => absurd hg (by simp), fun _ _ _ _ => rfl⟩
  | cons g gs ih =>
    intro s s' r h hv hs
    have hg := hs.ok g List.mem_cons_self
    obtain ⟨r₁, s₁, h1, h2⟩ := run_bind_iff.1 h
    have hstep := coreWriteBlock_step h1
    obtain ⟨hv1, hg1⟩ := hstep.inv hv hg
    by_cases hr : r₁ = .err
    · rw [if_pos hr] at h2
      obtain ⟨rfl, rfl⟩ := run_pure_iff.1 h2
      refine ⟨hv1, hg1, ?_, fun hne => absurd rfl hne, fun hne => absurd hne (by simp)⟩
      intro x hx hb
      exact hstep.frame hv hg hx (hb g List.mem_cons_self)
    · rw [if_neg hr] at h2
      obtain ⟨r₂, s₂, h3, h4⟩ := run_bind_iff.1 h2
      obtain ⟨rfl, rfl⟩ := run_pure_iff.1 h4
      obtain ⟨i1, i2, i3, i4, i5⟩ := ih h3 hv1 (hg1 ▸ hs.tail)
      rw [hg1] at i2 i3 i5
      refine ⟨i1, i2, ?_, ?_, ?_⟩
      · intro x hx hb
        rw [i3 x hx fun g' hg' => hb g' (List.mem_cons_of_mem _ hg')]
        exact hstep.frame hv hg hx (hb g List.mem_cons_self)
      · intro hne g' hg' x hx
        have hne2 := Ret.join_err hne
        rcases List.mem_cons.1 hg' with rfl | hg'
        · -- written in this round, and not touched by the later ones
          have hxR : x < s.view.geom.reserve := by have := hg.user; have := hx.2; omega
          rw [i3 x hxR ?_]
          · exact hstep.wrote hv hg hr hx
          · intro h' hh'
            rw [hg.block_of_area hx]
            exact (List.pairwise_cons.1 hs.distinct).1 h' hh'
        · exact i4 hne2 g' hg' x hx
      · intro hok x hx hout
        obtain ⟨rfl, rfl⟩ := Ret.join_ok hok hr
        rw [i5 rfl x hx fun g' hg' => hout g' (List.mem_cons_of_mem _ hg')]
        exact hstep.ok_frame hv hg hx (hout g List.mem_cons_self)

/-- What the read loop does, over the segments `gs`. -/
structure ReadEffect (s s' : World) (gs : List Seg) (buf : ℕ → Sector) (r : Ret × (ℕ → Sector)) : Prop where
  inv : s'.view.Inv
  geom : s'.view.geom = s.view.geom
  frame : ∀ x < s.view.geom.reserve, (∀ g ∈ gs, swapSectorAlign x ≠ g.bStart) → s'.contents x = s.contents x
  ok : r.1 = .ok → ∀ x < s.view.geom.reserve, s'.contents x = s.contents x
  read : r.1 = .ok → ∀ g ∈ gs, ∀ x, g.area x → r.2 (g.off + (x - g.sStart)) = s.contents x
  buffer : r.1 ≠ .err → ∀ k, (∀ g ∈ gs, ¬ (g.off ≤ k ∧ k < g.off + g.sCount)) → r.2 k = buf k

theorem readSegs_effect {bad : ℤ} {start : ℕ} : ∀ {gs : List Seg} {buf : ℕ → Sector} {s s' : World}
    {r : Ret × (ℕ → Sector)}, (readSegs E bad gs buf).run s = some (r, s') → s.view.Inv →
      SegsOk gs start s.view.geom.reserve → ReadEffect s s' gs buf r := by
  intro gs
  induction gs with
  | nil =>
    intro buf s s' r h hv _
    obtain ⟨rfl, rfl⟩ := run_pure_iff.1 h
    exact ⟨hv, rfl, fun _ _ _ => rfl, fun _ _ _ => rfl, fun _ g hg => absurd hg (by simp), fun _ _ _ => rfl⟩
  | cons g gs ih =>
    intro buf s s' r h hv hs
    have hg := hs.ok g List.mem_cons_self
    obtain ⟨⟨r₁, buf₁⟩, s₁, h1, h2⟩ := run_bind_iff.1 h
    have hstep := coreReadBlock_step h1
    obtain ⟨hv1, hg1⟩ := hstep.inv hv hg
    dsimp only at h2
    by_cases hr : r₁ = .err
    · rw [if_pos hr] at h2
      obtain ⟨rfl, rfl⟩ := run_pure_iff.1 h2
      refine ⟨hv1, hg1, ?_, fun h => absurd h (by simp), fun h => absurd h (by simp), fun h => absurd rfl h⟩
      intro x hx hb
      exact hstep.frame hv hg hx fun _ => hb g List.mem_cons_self
    · rw [if_neg hr] at h2
      obtain ⟨⟨r₂, buf₂⟩, s₂, h3, h4⟩ := run_bind_iff.1 h2
      obtain ⟨rfl, rfl⟩ := run_pure_iff.1 h4
      obtain ⟨i1, i2, i3, i4, i5, i6⟩ := ih h3 hv1 (hg1 ▸ hs.tail)
      rw [hg1] at i2 i3 i4
      refine ⟨i1, i2, ?_, ?_, ?_, ?_⟩
      · intro x hx hb
        rw [i3 x hx fun g' hg' => hb g' (List.mem_cons_of_mem _ hg')]
        exact hstep.frame hv hg hx fun _ => hb g List.mem_cons_self
      · intro hok x hx
        obtain ⟨rfl, rfl⟩ := Ret.join_ok hok hr
        rw [i4 rfl x hx]
        exact hstep.frame hv hg hx fun h => absurd h (by simp)
      · intro hok g' hg' x hx
        obtain ⟨rfl, rfl⟩ := Ret.join_ok hok hr
        rcases List.mem_cons.1 hg' with rfl | hg'
        · -- delivered in this round, and not overwritten by the later ones
          refine (i6 (by simp) _ ?_).trans (hstep.read hv hg hx)
          · intro h' hh' hwin
            have hp1 := hs.place g' List.mem_cons_self
            have hp2 := hs.place h' (List.mem_cons_of_mem _ hh')
            have hx' : h'.area x := by
              obtain ⟨hx1, hx2⟩ := hx
              unfold Seg.area
              omega
            exact hs.other hh' hx' (hg.block_of_area hx)
        · have hxR : x < s.view.geom.reserve := by
            have := (hs.ok g' (List.mem_cons_of_mem _ hg')).user
            have := hx.2
            omega
          refine (i5 rfl g' hg' x hx).trans ?_
          exact hstep.frame hv hg hxR fun h => absurd h (by simp)
      · intro hne k hk
        refine (i6 (Ret.join_err hne) k fun g' hg' => hk g' (List.mem_cons_of_mem _ hg')).trans ?_
        exact hstep.buffer hv hg hr (hk g List.mem_cons_self)

/-! ## Requests -/

theorem WriteEffect.user {gs : List Seg} {buf : ℕ → Sector} {r : Ret} {m n : ℕ}
    (h : WriteEffect { s with core := { s.core with user := m } } s' gs buf r) :
    WriteEffect s { s' with core := { s'.core with user := n } } gs buf r :=
  ⟨h.inv, h.geom, h.frame, h.wrote, h.ok⟩

theorem ReadEffect.user {gs : List Seg} {buf : ℕ → Sector} {r : Ret × (ℕ → Sector)} {m n : ℕ}
    (h : ReadEffect { s with core := { s.core with user := m } } s' gs buf r) :
    ReadEffect s { s' with core := { s'.core with user := n } } gs buf r :=
  ⟨h.inv, h.geom, h.frame, h.ok, h.read, h.buffer⟩

theorem scsiSwapCoreWrite_effect {start count bad : ℕ} {buf : ℕ → Sector} {r : Ret}
    (h : (scsiSwapCoreWrite E start count bad buf).run s = some (r, s')) (hv : s.view.Inv)
    (hf : Fits start count s.view.geom.reserve) : WriteEffect s s' (segments start count) buf r := by
  unfold scsiSwapCoreWrite at h
  rw [run_get_bind] at h
  split at h
  · obtain ⟨rfl, rfl⟩ := run_pure_iff.1 h
    exact ⟨hv, rfl, fun _ _ _ => rfl, fun h => absurd rfl h, fun h => absurd h (by simp)⟩
  · obtain ⟨u, s₁, h1, h2⟩ := run_bind_iff.1 h
    obtain rfl := run_modify_iff.1 h1
    obtain ⟨r', s₂, h3, h4⟩ := run_bind_iff.1 h2
    obtain ⟨u, s₃, h5, h6⟩ := run_bind_iff.1 h4
    obtain rfl := run_modify_iff.1 h5
    obtain ⟨rfl, rfl⟩ := run_pure_iff.1 h6
    rw [coreWriteLoop_visited] at h3
    change (writeSegs E _ buf (visited start count)).run _ = _ at h3
    rw [visited_eq hf.le hf.count, segments_eq] at h3
    rw [segments_eq]
    exact (writeSegs_effect h3 hv (segmentsFrom_ok hf (by omega))).user

theorem scsiSwapCoreRead_effect {start count bad : ℕ} {buf : ℕ → Sector} {r : Ret × (ℕ → Sector)}
    (h : (scsiSwapCoreRead E start count bad buf).run s = some (r, s')) (hv : s.view.Inv)
    (hf : Fits start count s.view.geom.reserve) : ReadEffect s s' (segments start count) buf r := by
  unfold scsiSwapCoreRead at h
  rw [run_get_bind] at h
  split at h
  · obtain ⟨rfl, rfl⟩ := run_pure_iff.1 h
    exact ⟨hv, rfl, fun _ _ _ => rfl, fun _ _ _ => rfl, fun h => absurd h (by simp), fun _ _ _ => rfl⟩
  · obtain ⟨u, s₁, h1, h2⟩ := run_bind_iff.1 h
    obtain rfl := run_modify_iff.1 h1
    obtain ⟨r', s₂, h3, h4⟩ := run_bind_iff.1 h2
    obtain ⟨u, s₃, h5, h6⟩ := run_bind_iff.1 h4
    obtain rfl := run_modify_iff.1 h5
    obtain ⟨rfl, rfl⟩ := run_pure_iff.1 h6
    rw [coreReadLoop_visited] at h3
    change (readSegs E _ (visited start count) buf).run _ = _ at h3
    rw [visited_eq hf.le hf.count, segments_eq] at h3
    rw [segments_eq]
    exact (readSegs_effect h3 hv (segmentsFrom_ok hf (by omega))).user

/-- The blocks of the segments are those the request touches. -/
theorem segments_touch {o : Request} {g : Seg} (hg : g ∈ segments o.start o.count) {x : ℕ}
    (hx : swapSectorAlign x = g.bStart) : o.Touches (x / 128) := by
  obtain ⟨i, hi, rfl⟩ := mem_segments.1 hg
  have hlt := lt_blockCount hi
  unfold swapSectorAlign swapBlockIndex at hx
  unfold Request.Touches
  simp only [segment] at hx
  omega

theorem segments_covers {o : Request} {g : Seg} (hg : g ∈ segments o.start o.count) {x : ℕ}
    (hx : g.area x) : o.Covers x := by
  obtain ⟨i, hi, rfl⟩ := mem_segments.1 hg
  obtain ⟨h1, h2, -⟩ := segment_off hi hx
  exact ⟨h1, h2⟩

theorem covers_segment {o : Request} {x : ℕ} (hx : o.Covers x) :
    ∃ g ∈ segments o.start o.count, g.area x ∧ g.off + (x - g.sStart) = x - o.start := by
  obtain ⟨hi, ha⟩ := exists_segment hx.1 hx.2
  exact ⟨_, mem_segments.2 ⟨_, hi, rfl⟩, ha, (segment_off hi ha).2.2⟩

/-- What serving one request does. -/
structure Served (s s' : World) (o : Request) (a : Reply) : Prop where
  inv : s'.view.Inv
  geom : s'.view.geom = s.view.geom
  /-- Blocks the request does not touch keep their contents. -/
  frame : ∀ x < s.view.geom.reserve, ¬ o.Touches (x / 128) → s'.contents x = s.contents x
  /-- A write that did not fail has stored its data. -/
  wrote : o.isWrite = true → a.ret ≠ .err → ∀ x, o.Covers x → s'.contents x = o.buf (x - o.start)
  /-- A request that returned 0 changed nothing but what it wrote. -/
  ok : a.ret = .ok → ∀ x < s.view.geom.reserve, ¬ (o.isWrite = true ∧ o.Covers x) → s'.contents x = s.contents x
  /-- A read that returned 0 delivered the contents. -/
  read : o.isWrite = false → a.ret = .ok → ∀ x, o.Covers x → a.buf (x - o.start) = s.contents x

theorem serve_served {o : Request} {a : Reply} (h : (o.serve E).run s = some (a, s')) (hv : s.view.Inv)
    (hf : Fits o.start o.count s.view.geom.reserve) : Served s s' o a := by
  unfold Request.serve at h
  split at h
  · rename_i hw
    obtain ⟨r, s₁, h1, h2⟩ := run_bind_iff.1 h
    obtain ⟨rfl, rfl⟩ := run_pure_iff.1 h2
    have he := scsiSwapCoreWrite_effect h1 hv hf
    refine ⟨he.inv, he.geom, ?_, ?_, ?_, fun h => absurd (h.symm.trans hw) (by simp)⟩
    · intro x hx ht
      exact he.frame x hx fun g hg hb => ht (segments_touch hg hb)
    · intro _ hr x hx
      obtain ⟨g, hg, ha, hoff⟩ := covers_segment hx
      rw [he.wrote hr g hg x ha, hoff]
    · intro hr x hx hc
      exact he.ok hr x hx fun g hg ha => hc ⟨hw, segments_covers hg ha⟩
  · rename_i hw
    obtain ⟨⟨r, buf⟩, s₁, h1, h2⟩ := run_bind_iff.1 h
    obtain ⟨rfl, rfl⟩ := run_pure_iff.1 h2
    have he := scsiSwapCoreRead_effect h1 hv hf
    refine ⟨he.inv, he.geom, ?_, fun h => absurd h hw, fun hr x hx _ => he.ok hr x hx, ?_⟩
    · intro x hx ht
      exact he.frame x hx fun g hg hb => ht (segments_touch hg hb)
    · intro _ hr x hx
      obtain ⟨g, hg, ha, hoff⟩ := covers_segment hx
      rw [← hoff]
      exact he.read hr g hg x ha

end ScsiSwap
