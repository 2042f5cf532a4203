import ScsiSwap.Lib.Exec
import ScsiSwap.Spec.Init

/-!
# What commands and flushes can change

`World.view` is the driver's memory as the I/O paths see it. `Upd A v s s'`: from `s` to `s'`
the memory became `v`, and the disk has changed at most at the addresses in `A`. In a step
`Dev A s s'` only the device was busy and the memory is as before. Every command and every
flush is such a step, whatever the environment does; the theorems of this module say so,
one per function.
-/

namespace ScsiSwap

open StateOption ByteCodec

variable {E : Env} {s s' s'' : World}

/-! ## Commands, as equations -/

/-- The sectors of a command. -/
def cmdRange (sector n : ℕ) (x : ℕ) : Prop := sector % 2 ^ 32 ≤ x ∧ x < sector % 2 ^ 32 + n % 2 ^ 16

theorem kmalloc_run (E : Env) (s : World) :
    (kmalloc E).run s = some (E.kmalloc s.tick, { s with tick := s.tick + 1 }) := rfl

theorem hdReadSector_run (r sector n : ℕ) :
    (hdReadSector E r sector n).run s =
      let io := E.read s.tick ⟨sector % 2 ^ 32, n % 2 ^ 16, r⟩
      some ((io.isOk, match io with
        | .ok => fun k => if k < n % 2 ^ 16 then some (s.disk (sector % 2 ^ 32 + k)) else none
        | .fail junk _ => fun k => if k < n % 2 ^ 16 then junk k else none), s.answered io) := by
  unfold hdReadSector
  rw [run_get_bind]
  simp only [cdbLba_hdCdb, cdbCount_hdCdb]
  rw [run_set_bind]
  cases E.read s.tick ⟨sector % 2 ^ 32, n % 2 ^ 16, r⟩ <;> rfl

theorem hdWriteSector_run (w : Writer) (r sector n : ℕ) (buf : ℕ → Sector) :
    (hdWriteSector E w r sector n buf).run s =
      let io := E.write s.tick ⟨sector % 2 ^ 32, n % 2 ^ 16, r⟩ buf
      let disk := fun x => if sector % 2 ^ 32 ≤ x ∧ x < sector % 2 ^ 32 + n % 2 ^ 16 then
          match io with
          | .ok => buf (x - sector % 2 ^ 32)
          | .fail junk _ => (junk (x - sector % 2 ^ 32)).getD (s.disk x)
        else s.disk x
      some (io.isOk, { s.answered io with
        disk := disk, sent := ⟨w, sector % 2 ^ 32, n % 2 ^ 16, disk⟩ :: s.sent }) := by
  unfold hdWriteSector
  rw [run_get_bind]
  simp only [cdbLba_hdCdb, cdbCount_hdCdb]
  rfl

/-! ## The driver's memory -/

/-- Where everything is. -/
structure Geom where
  reserve : ℕ
  head : ℕ
  table : ℕ
  data : ℕ
  logHead : ℕ
  logData : ℕ
  logCap : Option ℤ

def World.geom (s : World) : Geom :=
  ⟨s.core.sectorReserveStart, s.core.sectorHead, s.core.sectorTable, s.core.sectorData,
    s.log.sectorHead, s.log.sectorData, s.log.ring.map (·.itemCap)⟩

/-- The areas lie where `core.h` puts them, in a reserve that 32-bit sector numbers reach. The
head is in one of the blocks searched for it. -/
structure Geom.Ok (g : Geom) : Prop where
  size : g.reserve + maxReservedSector ≤ 2 ^ 32
  table : g.table = g.reserve + swapTableOffset
  data : g.data = g.reserve + swapDataOffset
  head : g.reserve + swapHeadOffest ≤ g.head ∧ g.head < g.reserve + swapHeadOffest + 128 * maxSwapHeadBlockNum
  log : ∀ cap ∈ g.logCap,
    cap = logItemCap ∧ g.logHead = g.reserve + swapLogHeadOffset ∧ g.logData = g.reserve + swapLogDataOffset

/-- The sectors of the reserve. -/
def Reserved (g : Geom) (x : ℕ) : Prop := g.reserve ≤ x ∧ x < g.reserve + maxReservedSector

/-- A mapping without the record of where its entry was last saved. -/
def SwapInfo.strip (i : SwapInfo) : SwapInfo := { i with table := { i.table with saveSec := 0 } }

/-- A head without its checksum. -/
def SwapHead.unsealed (h : SwapHead) : SwapHead := { h with checksum := 0 }

/-- What the I/O paths read of the driver's memory. The two fields that only the flushes set
(`save_sec` and the head's checksum) are blanked out. -/
structure View where
  geom : Geom
  list : List ℕ
  num : ℕ
  head : SwapHead
  info : ℕ → SwapInfo
  brk : ℕ

def World.view (s : World) : View :=
  ⟨s.geom, s.core.infoList, s.core.infoNum, s.core.head.unsealed, fun p => (s.heap p).strip, s.brk⟩

namespace View

def bitmap (v : View) : BitVec 1024 := v.head.bitmap

def setBitmap (v : View) (b : BitVec 1024) : View := { v with head := { v.head with bitmap := b } }

def setInfo (v : View) (p : ℕ) (i : SwapInfo) : View := { v with info := Function.update v.info p i.strip }

@[simp] theorem setBitmap_bitmap (v : View) (b : BitVec 1024) : (v.setBitmap b).bitmap = b := rfl
@[simp] theorem setBitmap_geom (v : View) (b : BitVec 1024) : (v.setBitmap b).geom = v.geom := rfl
@[simp] theorem setBitmap_list (v : View) (b : BitVec 1024) : (v.setBitmap b).list = v.list := rfl
@[simp] theorem setBitmap_num (v : View) (b : BitVec 1024) : (v.setBitmap b).num = v.num := rfl
@[simp] theorem setBitmap_info (v : View) (b : BitVec 1024) : (v.setBitmap b).info = v.info := rfl
@[simp] theorem setBitmap_brk (v : View) (b : BitVec 1024) : (v.setBitmap b).brk = v.brk := rfl
@[simp] theorem setBitmap_setBitmap (v : View) (b c : BitVec 1024) :
    (v.setBitmap b).setBitmap c = v.setBitmap c := rfl
@[simp] theorem setBitmap_self (v : View) : v.setBitmap v.bitmap = v := rfl

@[simp] theorem setInfo_bitmap (v : View) (p : ℕ) (i : SwapInfo) : (v.setInfo p i).bitmap = v.bitmap := rfl
@[simp] theorem setInfo_geom (v : View) (p : ℕ) (i : SwapInfo) : (v.setInfo p i).geom = v.geom := rfl
@[simp] theorem setInfo_list (v : View) (p : ℕ) (i : SwapInfo) : (v.setInfo p i).list = v.list := rfl
@[simp] theorem setInfo_num (v : View) (p : ℕ) (i : SwapInfo) : (v.setInfo p i).num = v.num := rfl
@[simp] theorem setInfo_brk (v : View) (p : ℕ) (i : SwapInfo) : (v.setInfo p i).brk = v.brk := rfl
@[simp] theorem setInfo_info_self (v : View) (p : ℕ) (i : SwapInfo) :
    (v.setInfo p i).info p = i.strip := Function.update_self ..
theorem setInfo_info_of_ne (v : View) {p q : ℕ} (i : SwapInfo) (h : q ≠ p) :
    (v.setInfo p i).info q = v.info q := Function.update_of_ne h ..
@[simp] theorem setInfo_setInfo (v : View) (p : ℕ) (i j : SwapInfo) :
    (v.setInfo p i).setInfo p j = v.setInfo p j := by
  simp [setInfo]
theorem setInfo_setBitmap (v : View) (p : ℕ) (i : SwapInfo) (b : BitVec 1024) :
    (v.setInfo p i).setBitmap b = (v.setBitmap b).setInfo p i := rfl

end View

@[simp] theorem SwapInfo.strip_data (i : SwapInfo) : i.strip.data = i.data := rfl
@[simp] theorem SwapInfo.strip_strip (i : SwapInfo) : i.strip.strip = i.strip := rfl

@[simp] theorem view_setBitmap (b : BitVec 1024) : (s.setBitmap b).view = s.view.setBitmap b := rfl

@[simp] theorem view_setInfo (p : ℕ) (i : SwapInfo) : (s.setInfo p i).view = s.view.setInfo p i := by
  unfold World.view View.setInfo World.setInfo
  congr 1
  funext q
  by_cases hq : q = p
  · subst hq; simp
  · simp [hq]

theorem view_info (p : ℕ) : s.view.info p = (s.heap p).strip := rfl

theorem View.setInfo_congr {v : View} {p : ℕ} {i j : SwapInfo} (h : i.strip = j.strip) :
    v.setInfo p i = v.setInfo p j := by
  unfold View.setInfo
  rw [h]

/-- Writing back an entry that differs in `save_sec` only is not seen. -/
theorem View.setInfo_eq_self {v : View} {p : ℕ} {i : SwapInfo} (h : i.strip = v.info p) :
    v.setInfo p i = v := by
  unfold View.setInfo
  rw [h, Function.update_eq_self]

/-! ## Steps -/

/-- From `s` to `s'` the memory became `v`, and the disk changed at most in `A`. -/
structure Upd (A : ℕ → Prop) (v : View) (s s' : World) : Prop where
  view : s'.view = v
  disk : ∀ x, ¬ A x → s'.disk x = s.disk x
  dead : s.core.deviceDead ≤ s'.core.deviceDead

/-- Only the device was busy, and the disk changed at most in `A`. -/
abbrev Dev (A : ℕ → Prop) (s s' : World) : Prop := Upd A s.view s s'

variable {A B : ℕ → Prop} {v w : View}

theorem Dev.refl (s : World) : Dev A s s := ⟨rfl, fun _ _ => rfl, le_rfl⟩

theorem Upd.trans (h1 : Upd A v s s') (h2 : Upd A w s' s'') : Upd A w s s'' :=
  ⟨h2.view, fun x hx => (h2.disk x hx).trans (h1.disk x hx), h1.dead.trans h2.dead⟩

theorem Upd.dev (h1 : Upd A v s s') (h2 : Dev A s' s'') : Upd A v s s'' := by
  have h := h1.trans h2
  rwa [h1.view] at h

theorem Upd.mono (h : Upd A v s s') (hAB : ∀ x, A x → B x) : Upd B v s s' :=
  ⟨h.view, fun x hx => h.disk x fun ha => hx (hAB x ha), h.dead⟩

/-- The addresses in `A`, if `P` holds; all of them otherwise. -/
def Within (P : Prop) (A : ℕ → Prop) (x : ℕ) : Prop := P → A x

theorem Upd.within {P : Prop} (h : Upd (Within P A) v s s') (hP : P) : Upd A v s s' :=
  h.mono fun _ hx => hx hP

/-- A change of memory alone. -/
theorem Upd.ofMem (hv : s'.view = v) (hd : s'.disk = s.disk) (hc : s'.core.deviceDead = s.core.deviceDead) :
    Upd A v s s' :=
  ⟨hv, fun _ _ => by rw [hd], hc.ge⟩

theorem Upd.setBitmap (h : Upd A v s s') (b : BitVec 1024) : Upd A (v.setBitmap b) s (s'.setBitmap b) :=
  ⟨by rw [view_setBitmap, h.view], h.disk, h.dead⟩

theorem Upd.setInfo (h : Upd A v s s') (p : ℕ) (i : SwapInfo) : Upd A (v.setInfo p i) s (s'.setInfo p i) :=
  ⟨by rw [view_setInfo, h.view], h.disk, h.dead⟩

theorem Upd.geom (h : Upd A v s s') : s'.geom = v.geom := congrArg View.geom h.view

theorem Upd.bitmap (h : Upd A v s s') : s'.core.head.bitmap = v.bitmap := congrArg View.bitmap h.view

theorem Upd.info (h : Upd A v s s') (p : ℕ) :
    (s'.heap p).strip = v.info p := congrFun (congrArg View.info h.view) p

theorem Upd.data (h : Upd A v s s') (p : ℕ) : (s'.heap p).data = (v.info p).data := by
  rw [← h.info p, SwapInfo.strip_data]

theorem answered_dev (io : IoResult) : Dev A s (s.answered io) :=
  ⟨rfl, fun _ _ => rfl, Nat.le_add_right _ _⟩

theorem hdReadSector_dev {r sector n : ℕ} {a : Bool × (ℕ → Option Sector)}
    (h : (hdReadSector E r sector n).run s = some (a, s')) : Dev A s s' := by
  rw [hdReadSector_run] at h
  obtain ⟨-, rfl⟩ := Prod.mk.inj (Option.some.inj h)
  exact answered_dev _

theorem hdWriteSector_dev {w : Writer} {r sector n : ℕ} {buf : ℕ → Sector} {a : Bool}
    (h : (hdWriteSector E w r sector n buf).run s = some (a, s')) : Dev (cmdRange sector n) s s' := by
  rw [hdWriteSector_run] at h
  obtain ⟨-, rfl⟩ := Prod.mk.inj (Option.some.inj h)
  have ha := answered_dev (A := cmdRange sector n) (s := s)
    (E.write s.tick ⟨sector % 2 ^ 32, n % 2 ^ 16, r⟩ buf)
  exact ⟨rfl, fun x hx => if_neg hx, ha.dead⟩

/-- A write that returned 0 left its buffer on the disk. -/
theorem hdWriteSector_ok {w : Writer} {r sector n : ℕ} {buf : ℕ → Sector}
    (h : (hdWriteSector E w r sector n buf).run s = some (true, s')) :
    ∀ x, cmdRange sector n x → s'.disk x = buf (x - sector % 2 ^ 32) := by
  rw [hdWriteSector_run] at h
  obtain ⟨hok, rfl⟩ := Prod.mk.inj (Option.some.inj h)
  intro x hx
  refine (if_pos hx).trans ?_
  cases hio : E.write s.tick ⟨sector % 2 ^ 32, n % 2 ^ 16, r⟩ buf with
  | ok => rfl
  | fail junk nc => rw [hio] at hok; exact absurd hok (by simp [IoResult.isOk])

/-- A write of one sector, whatever comes of it. -/
theorem hdWriteSector_one {w : Writer} {r sector : ℕ} {b : Sector} {a : Bool}
    (h : (hdWriteSector E w r sector 1 fun _ => b).run s = some (a, s')) :
    a = (E.write s.tick ⟨sector % 2 ^ 32, 1, r⟩ fun _ => b).isOk ∧
      s'.disk = Function.update s.disk (sector % 2 ^ 32)
        (match E.write s.tick ⟨sector % 2 ^ 32, 1, r⟩ fun _ => b with
        | .ok => b
        | .fail junk _ => (junk 0).getD (s.disk (sector % 2 ^ 32))) := by
  rw [hdWriteSector_run] at h
  obtain ⟨rfl, rfl⟩ := Prod.mk.inj (Option.some.inj h)
  refine ⟨rfl, funext fun x => ?_⟩
  rw [show 1 % 2 ^ 16 = 1 from rfl]
  by_cases hx : x = sector % 2 ^ 32
  · subst hx
    rw [Function.update_self]
    dsimp only
    rw [if_pos (by omega), Nat.sub_self]
  · rw [Function.update_of_ne hx]
    exact if_neg (by omega)

theorem kmalloc_dev {a : Bool} (h : (kmalloc E).run s = some (a, s')) : Dev A s s' := by
  unfold kmalloc at h
  rw [run_get_bind, run_set_bind] at h
  obtain ⟨-, rfl⟩ := run_pure_iff.1 h
  exact ⟨rfl, fun _ _ => rfl, le_rfl⟩

theorem hdTestUnitReady_dev {a : Bool} (h : (hdTestUnitReady E).run s = some (a, s')) : Dev A s s' := by
  unfold hdTestUnitReady at h
  rw [run_get_bind, run_set_bind] at h
  obtain ⟨-, rfl⟩ := run_pure_iff.1 h
  exact ⟨rfl, fun _ _ => rfl, le_rfl⟩

theorem deviceDeadInc_dev {u : PUnit} (h : deviceDeadInc.run s = some (u, s')) : Dev A s s' := by
  unfold deviceDeadInc at h
  rw [run_modify_iff] at h
  subst h
  exact ⟨rfl, fun _ _ => rfl, Nat.le_add_right _ _⟩

theorem swapRepairSuccessiveSectors_dev {r : ℤ}
    (h : (swapRepairSuccessiveSectors E).run s = some (r, s')) : Dev A s s' := by
  unfold swapRepairSuccessiveSectors at h
  obtain ⟨a, s₁, h1, h2⟩ := run_bind_iff.1 h
  have hd := hdTestUnitReady_dev (A := A) h1
  cases a with
  | true =>
    obtain ⟨-, rfl⟩ := run_pure_iff.1 h2
    exact hd
  | false =>
    obtain ⟨u, s₂, h3, h4⟩ := run_bind_iff.1 h2
    obtain ⟨-, rfl⟩ := run_pure_iff.1 h4
    exact hd.dev (deviceDeadInc_dev h3)

/-! ## Flushes -/

theorem flushSwapInfoData_dev {p : ℕ} {a : Bool} (h : (flushSwapInfoData E p).run s = some (a, s')) :
    Dev (cmdRange (s.heap p).table.swapSec.toNat (s.heap p).table.secSize.toNat) s s' := by
  unfold flushSwapInfoData at h
  rw [run_get_bind] at h
  dsimp only at h
  split at h
  · obtain ⟨-, rfl⟩ := run_pure_iff.1 h
    exact Dev.refl _
  · exact hdWriteSector_dev h

/-- The address of sector `base + k`, for some `k < n`. -/
def Span (base n x : ℕ) : Prop := ∃ k < n, x = (base + k) % 2 ^ 32

theorem Span.mono {base n m x : ℕ} (h : Span base n x) (hnm : n ≤ m) : Span base m x := by
  obtain ⟨k, hk, rfl⟩ := h
  exact ⟨k, by omega, rfl⟩

theorem cmdRange_one {sector x : ℕ} : cmdRange sector 1 x ↔ x = sector % 2 ^ 32 := by
  unfold cmdRange; omega

/-- The skipping loop writes from `sect` on, and stops past it. -/
theorem writeSkip_dev {buffer : Sector} {limit : ℕ} :
    ∀ {fuel sect t : ℕ} {s s' : World}, (writeSkip E buffer limit fuel sect).run s = some (t, s') →
      Dev (fun x => ∃ k, sect ≤ k ∧ k < t ∧ x = k % 2 ^ 32) s s' ∧ sect < t ∧ t ≤ max (sect + 1) limit := by
  intro fuel
  induction fuel with
  | zero =>
    intro sect t s s' h
    unfold writeSkip at h
    obtain ⟨ok, s₁, h1, h2⟩ := run_bind_iff.1 h
    have hd := (hdWriteSector_dev h1).mono (B := fun x => ∃ k, sect ≤ k ∧ k < sect + 1 ∧ x = k % 2 ^ 32)
      fun x hx => ⟨sect, le_rfl, Nat.lt_succ_self _, cmdRange_one.1 hx⟩
    have ht : t = sect + 1 ∧ s' = s₁ := by
      split at h2 <;> exact run_pure_iff.1 h2
    obtain ⟨rfl, rfl⟩ := ht
    exact ⟨hd, Nat.lt_succ_self _, le_max_left _ _⟩
  | succ fuel ih =>
    intro sect t s s' h
    unfold writeSkip at h
    obtain ⟨ok, s₁, h1, h2⟩ := run_bind_iff.1 h
    have hd := (hdWriteSector_dev h1).mono (B := fun x => ∃ k, sect ≤ k ∧ k < sect + 1 ∧ x = k % 2 ^ 32)
      fun x hx => ⟨sect, le_rfl, Nat.lt_succ_self _, cmdRange_one.1 hx⟩
    split at h2
    · obtain ⟨rfl, rfl⟩ := run_pure_iff.1 h2
      exact ⟨hd, Nat.lt_succ_self _, le_max_left _ _⟩
    · rename_i hc
      obtain ⟨hd', hlt, hle⟩ := ih h2
      refine ⟨Upd.dev (hd.mono ?_) (hd'.mono ?_), by omega, by omega⟩
      · rintro x ⟨k, h1, h2, rfl⟩; exact ⟨k, h1, by omega, rfl⟩
      · rintro x ⟨k, h1, h2, rfl⟩; exact ⟨k, by omega, h2, rfl⟩

/-- Where a table sector may go, for a list whose sectors so far went to at most `n` places. -/
def TableArea (g : Geom) (n x : ℕ) : Prop :=
  Span g.table n x ∨ Span (g.reserve + swapTableBackupOffset) n x

theorem TableArea.reserved {g : Geom} (hg : g.Ok) {n x : ℕ} (h : TableArea g n x) (hn : n ≤ 1000) :
    Reserved g x := by
  have h1 := hg.size
  have h2 := hg.table
  unfold Reserved
  simp only [maxReservedSector, swapTableOffset, sector8M] at *
  rcases h with ⟨k, hk, rfl⟩ | ⟨k, hk, rfl⟩
  · omega
  · simp only [swapTableBackupOffset, maxReservedSector, sector8M]
    omega

theorem TableArea.mono {g : Geom} {n m x : ℕ} (h : TableArea g n x) (hnm : n ≤ m) : TableArea g m x :=
  h.imp (fun h => h.mono hnm) (fun h => h.mono hnm)

theorem flushTableSector_dev {buffer : Sector} {sect back n : ℕ} {r : ℕ × ℕ}
    (h : (flushTableSector E buffer sect back).run s = some (r, s'))
    (hs : s.core.sectorTable ≤ sect) (hb : s.core.sectorReserveStart + swapTableBackupOffset ≤ back)
    (hs' : sect ≤ s.core.sectorTable + 32 + n)
    (hb' : back ≤ s.core.sectorReserveStart + swapTableBackupOffset + 32 + n) :
    Dev (TableArea s.geom (33 + n)) s s' ∧ sect < r.1 ∧ r.1 ≤ s.core.sectorTable + 33 + n ∧
      back < r.2 ∧ r.2 ≤ s.core.sectorReserveStart + swapTableBackupOffset + 33 + n := by
  unfold flushTableSector at h
  rw [run_get_bind] at h
  dsimp only at h
  obtain ⟨t, s₁, h1, h2⟩ := run_bind_iff.1 h
  obtain ⟨u, s₂, h3, h4⟩ := run_bind_iff.1 h2
  obtain ⟨rfl, rfl⟩ := run_pure_iff.1 h4
  obtain ⟨hd1, hlt1, hle1⟩ := writeSkip_dev h1
  obtain ⟨hd2, hlt2, hle2⟩ := writeSkip_dev h3
  have e1 : t ≤ s.core.sectorTable + 33 + n := by simp only [swpaTableNSector] at hle1; omega
  have e2 : u ≤ s.core.sectorReserveStart + swapTableBackupOffset + 33 + n := by
    simp only [swpaTableNSector] at hle2; omega
  refine ⟨Upd.dev (hd1.mono ?_) (hd2.mono ?_), hlt1, e1, hlt2, e2⟩
  · rintro x ⟨k, ha, hb, rfl⟩
    refine Or.inl ⟨k - s.core.sectorTable, by omega, ?_⟩
    rw [show s.geom.table = s.core.sectorTable from rfl, Nat.add_sub_cancel' (by omega)]
  · rintro x ⟨k, ha, hb', rfl⟩
    refine Or.inr ⟨k - (s.core.sectorReserveStart + swapTableBackupOffset), by omega, ?_⟩
    rw [show s.geom.reserve = s.core.sectorReserveStart from rfl, Nat.add_sub_cancel' (by omega)]

theorem setInfo_saveSec_dev (p : ℕ) (v : BitVec 64) :
    Dev A s (s.setInfo p { s.heap p with table := { (s.heap p).table with saveSec := v } }) := by
  refine Upd.ofMem ?_ rfl rfl
  rw [view_setInfo]
  exact View.setInfo_eq_self rfl

/-- The table loop: `i` entries fill the current sector, `n` sectors have gone out. -/
theorem flushTableLoop_dev : ∀ {ps : List ℕ} {i n : ℕ} {buffer : Sector} {sect back : ℕ} {s s' : World}
    {u : PUnit}, (flushTableLoop E ps i buffer sect back).run s = some (u, s') →
      s.core.sectorTable ≤ sect → s.core.sectorReserveStart + swapTableBackupOffset ≤ back →
      sect ≤ s.core.sectorTable + 32 + n →
      back ≤ s.core.sectorReserveStart + swapTableBackupOffset + 32 + n →
      Dev (TableArea s.geom (33 + n + ps.length)) s s' := by
  intro ps
  induction ps with
  | nil =>
    intro i n buffer sect back s s' u h hs hb hs' hb'
    unfold flushTableLoop at h
    split at h
    · obtain ⟨r, s₁, h1, h2⟩ := run_bind_iff.1 h
      obtain ⟨-, rfl⟩ := run_pure_iff.1 h2
      exact (flushTableSector_dev h1 hs hb hs' hb').1
    · obtain ⟨-, rfl⟩ := run_pure_iff.1 h
      exact Dev.refl _
  | cons p ps ih =>
    intro i n buffer sect back s s' u h hs hb hs' hb'
    unfold flushTableLoop at h
    rw [run_get_bind] at h
    dsimp only at h
    rw [run_set_bind] at h
    have h0 := setInfo_saveSec_dev (A := TableArea s.geom (33 + n + (p :: ps).length)) (s := s) p
      (.ofNat 64 sect)
    set s₀ := s.setInfo p { s.heap p with table := { (s.heap p).table with saveSec := .ofNat 64 sect } }
    have hg : s₀.geom = s.geom := rfl
    split at h
    · -- the sector is full and goes out
      obtain ⟨r, s₁, h1, h2⟩ := run_bind_iff.1 h
      obtain ⟨hd, l1, l2, l3, l4⟩ := flushTableSector_dev h1 hs hb hs' hb'
      have hg1 : s₁.geom = s.geom := hd.geom
      have ht : s₁.core.sectorTable = s.core.sectorTable := congrArg Geom.table hg1
      have hr : s₁.core.sectorReserveStart = s.core.sectorReserveStart := congrArg Geom.reserve hg1
      have hs0 : s₀.core.sectorTable = s.core.sectorTable := rfl
      have hr0 : s₀.core.sectorReserveStart = s.core.sectorReserveStart := rfl
      have hd2 := ih (n := n + 1) h2 (by rw [ht]; omega) (by rw [hr]; omega) (by rw [ht]; omega)
        (by rw [hr]; omega)
      rw [hg1] at hd2
      rw [hg] at hd
      refine (h0.dev (hd.mono ?_)).dev (hd2.mono ?_)
      · intro x hx; exact hx.mono (by omega)
      · intro x hx; exact hx.mono (by simp only [List.length_cons]; omega)
    · have hd2 := ih (n := n) h hs hb hs' hb'
      exact h0.dev (hd2.mono fun x hx => hx.mono (by simp only [List.length_cons]; omega))

theorem flushSwapInfoTable_dev {a : Bool} (h : (flushSwapInfoTable E).run s = some (a, s')) :
    a = true ∧ Dev (TableArea s.geom (33 + s.core.infoList.length)) s s' := by
  unfold flushSwapInfoTable at h
  rw [run_get_bind] at h
  obtain ⟨u, s₁, h1, h2⟩ := run_bind_iff.1 h
  obtain ⟨rfl, rfl⟩ := run_pure_iff.1 h2
  exact ⟨rfl, flushTableLoop_dev (n := 0) h1 le_rfl le_rfl (by omega) (by omega)⟩

/-- The two sectors of the head. -/
def HeadArea (g : Geom) (x : ℕ) : Prop := x = g.head % 2 ^ 32 ∨ x = (g.head + 64) % 2 ^ 32

theorem HeadArea.reserved {g : Geom} (hg : g.Ok) {x : ℕ} (h : HeadArea g x) : Reserved g x := by
  have h1 := hg.size
  have h2 := hg.head
  unfold Reserved
  simp only [maxReservedSector, swapHeadOffest, sector8M, maxSwapHeadBlockNum] at *
  rcases h with rfl | rfl <;> omega

theorem flushSwapHead_dev {a : Bool} (h : (flushSwapHead E).run s = some (a, s')) :
    Dev (HeadArea s.geom) s s' := by
  unfold flushSwapHead at h
  rw [run_get_bind] at h
  dsimp only at h
  rw [run_set_bind] at h
  obtain ⟨b, s₁, h1, h2⟩ := run_bind_iff.1 h
  have h0 : Dev (HeadArea s.geom) s
      { s with core := { s.core with head := { s.core.head with checksum := s.core.head.crc } } } :=
    ⟨rfl, fun _ _ => rfl, le_rfl⟩
  refine (h0.dev ((hdWriteSector_dev h1).mono ?_)).dev ((hdWriteSector_dev h2).mono ?_)
  · intro x hx; exact Or.inl (cmdRange_one.1 hx)
  · intro x hx; exact Or.inr (cmdRange_one.1 hx)

/-! ## The log -/

/-- The log sectors a push may write. -/
def LogArea (g : Geom) (x : ℕ) : Prop :=
  ∃ cap ∈ g.logCap, x = g.logHead % 2 ^ 32 ∨
    ∃ slot : ℕ, (slot : ℤ) < cap ∧ x = (g.logData + slot * 32 / 512) % 2 ^ 32

theorem LogArea.reserved {g : Geom} (hg : g.Ok) {x : ℕ} (h : LogArea g x) : Reserved g x := by
  have h1 := hg.size
  obtain ⟨cap, hcap, h⟩ := h
  obtain ⟨hc, h2, h3⟩ := hg.log cap hcap
  unfold Reserved
  simp only [maxReservedSector, swapLogHeadOffset, swapLogDataOffset, swapTableBackupOffset, sector8M,
    sector1M, logItemCap] at *
  rcases h with rfl | ⟨slot, hs, rfl⟩
  · omega
  · have : slot < 512 := by omega
    omega

@[simp] theorem Cspring.update_itemCap {α : Type} (r : Cspring α) : r.update.itemCap = r.itemCap := by
  unfold Cspring.update
  dsimp only
  split_ifs <;> rfl

theorem Cspring.push_cap {α : Type} {r r' : Cspring α} {x : α} {slot : ℕ}
    (h : r.push x = some (slot, r')) : r'.itemCap = r.itemCap ∧ (slot : ℤ) < r.itemCap := by
  unfold Cspring.push at h
  split at h
  · rename_i hb
    simp only [Cspring.inBuffer, Bool.decide_and, Bool.and_eq_true, decide_eq_true_eq] at hb
    obtain ⟨rfl, rfl⟩ := Prod.mk.inj (Option.some.inj h)
    exact ⟨Cspring.update_itemCap _, by omega⟩
  · exact absurd h (by simp)

theorem scsiSwapLogLast_run {r : Cspring LogItem} {a : Option LogItem}
    (h : (scsiSwapLogLast r).run s = some (a, s')) : s' = s := by
  unfold scsiSwapLogLast scsiSwapLogPeek at h
  split at h
  · exact (run_pure_iff.1 h).2
  · split at h
    · exact (run_pure_iff.1 h).2
    · split at h
      · exact absurd h (by simp [oops, StateT.run])
      · exact (run_pure_iff.1 h).2

theorem scsiSwapLogItemInit_run {r : Cspring LogItem} {type result : BitVec 8} {src dst : BitVec 64}
    {count : BitVec 16} {a : LogItem}
    (h : (scsiSwapLogItemInit E r type result src dst count).run s = some (a, s')) : s' = s := by
  unfold scsiSwapLogItemInit at h
  rw [run_get_bind] at h
  obtain ⟨last, s₁, h1, h2⟩ := run_bind_iff.1 h
  rw [(run_pure_iff.1 h2).2, scsiSwapLogLast_run h1]

theorem scsiSwapLogPush_dev {type result : BitVec 8} {src dst : BitVec 64} {count : BitVec 16} {a : Bool}
    (h : (scsiSwapLogPush E type result src dst count).run s = some (a, s')) : Dev (LogArea s.geom) s s' := by
  unfold scsiSwapLogPush at h
  rw [run_get_bind] at h
  split at h
  · exact absurd h (by simp [oops, StateT.run])
  rename_i r hr
  obtain ⟨item, s₁, h1, h2⟩ := run_bind_iff.1 h
  obtain rfl := scsiSwapLogItemInit_run h1
  obtain ⟨ok, s₂, h3, h4⟩ := run_bind_iff.1 h2
  have hcap0 : r.itemCap ∈ s₁.geom.logCap := by simp [World.geom, hr]
  have hd : Dev (LogArea s₁.geom) s₁ s₂ := by
    unfold scsiSwapLogUpdateData at h3
    split at h3
    · exact absurd h3 (by simp [oops, StateT.run])
    rename_i slot r' hp
    obtain ⟨hcap, hslot⟩ := Cspring.push_cap hp
    rw [run_modify_bind, run_get_bind] at h3
    dsimp only at h3
    have hm : Dev (LogArea s₁.geom) s₁ { s₁ with log := { s₁.log with ring := some r' } } := by
      refine Upd.ofMem ?_ rfl rfl
      simp only [World.view, World.geom, hr, Option.map_some, hcap]
    refine hm.dev ((hdWriteSector_dev h3).mono fun x hx => ⟨r.itemCap, hcap0, Or.inr ⟨slot, hslot, ?_⟩⟩)
    exact cmdRange_one.1 hx
  split at h4
  · -- the head follows once the item is on the disk
    unfold scsiSwapLogUpdateHead at h4
    rw [run_get_bind] at h4
    split at h4
    · exact absurd h4 (by simp [oops, StateT.run])
    dsimp only at h4
    rw [run_set_bind] at h4
    have hg := hd.geom
    refine (hd.dev ?_).dev ((hdWriteSector_dev h4).mono fun x hx => ⟨_, hcap0, Or.inl ?_⟩)
    · exact Upd.ofMem rfl rfl rfl
    · rw [show s₁.view.geom = s₁.geom from rfl] at hg
      rw [← hg]
      exact cmdRange_one.1 hx
  · obtain ⟨-, rfl⟩ := run_pure_iff.1 h4
    exact hd

end ScsiSwap
