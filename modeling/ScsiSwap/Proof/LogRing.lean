import ScsiSwap.Proof.Ring
import ScsiSwap.Proof.Table

/-!
# The log over a restart

`scsi_swap_log_push` writes 512 bytes of the ring, from byte `i_sector` on instead of sector `i_sector`, to
sector `i_sector` of the log.

* `items_eq_iff`: when two rings show the same;
* `Logged H D n`: the log after `n` entries, in memory and on the disk, `push_logged`: one more;
* `scsiSwapLogInit_ring`: what an initialisation makes of a disk;
* `log_rebuilt_iff`: it makes the same ring again as long as there were no more than 16 entries.
-/

namespace ScsiSwap

open StateOption ByteCodec

variable {E E' : Env} {s s' : World} {H D n : ℕ}

/-! ## The ring -/

namespace Cspring

variable {α : Type} {r r' : Cspring α}

/-- Two rings with the same past show the same, if they have the same in all slots in use. -/
theorem items_eq_iff (h : r.Pushed 512 n) (h' : r'.Pushed 512 n) :
    r.items = r'.items ↔ ∀ j < min n 512, r.buffer j = r'.buffer j := by
  have hlen : ∀ {q : Cspring α}, q.Pushed 512 n → q.itemNum.toNat = min n 512 :=
    fun hq => by rw [hq.num, Int.toNat_natCast]
  unfold items
  rw [hlen h, hlen h', List.map_inj_left]
  constructor
  · intro hall j hj
    -- the item that stands in slot `j`
    obtain ⟨i, hi, rfl⟩ : ∃ i < min n 512, (n - min n 512 + i) % 512 = j := by
      by_cases hn : n < 512
      · exact ⟨j, hj, by omega⟩
      · exact ⟨(j + 512 - n % 512) % 512, by omega, by omega⟩
    have := hall i (List.mem_range.2 hi)
    rw [h.peek hi, h'.peek hi] at this
    exact Option.some.inj this
  · intro hall i hi
    rw [List.mem_range] at hi
    rw [h.peek hi, h'.peek hi, hall _ (by omega)]

end Cspring

/-! ## Entries -/

variable {r r' : Cspring LogItem}

/-- The arguments of `scsi_swap_log_push`. -/
structure LogEntry where
  type : BitVec 8
  result : BitVec 8
  src : BitVec 64
  dst : BitVec 64
  count : BitVec 16

def LogEntry.push (E : Env) (e : LogEntry) : SwapM Bool := scsiSwapLogPush E e.type e.result e.src e.dst e.count

theorem scsiSwapLogLast_pushed {a : Option LogItem} (h : r.Pushed 512 n)
    (hrun : (scsiSwapLogLast r).run s = some (a, s')) :
    a = if n = 0 then none else some (r.buffer ((n - 1) % 512)) := by
  unfold scsiSwapLogLast at hrun
  rw [h.num] at hrun
  by_cases hn : n = 0
  · rw [if_pos (by omega)] at hrun
    rw [if_pos hn]
    exact (run_pure_iff.1 hrun).1
  · rw [if_neg (by omega)] at hrun
    unfold scsiSwapLogPeek at hrun
    have hlast := h.peek (i := min n 512 - 1) (by omega)
    rw [show n - min n 512 + (min n 512 - 1) = n - 1 by omega] at hlast
    rw [h.num, if_neg (by omega), show ((min n 512 : ℕ) : ℤ) - 1 = ((min n 512 - 1 : ℕ) : ℤ) by omega, hlast]
      at hrun
    rw [if_neg hn]
    exact (run_pure_iff.1 hrun).1

/-- Every entry has the number of the one before it, plus one, and nothing in the last byte. -/
theorem scsiSwapLogItemInit_fields {e : LogEntry} {a : LogItem} (h : r.Pushed 512 n)
    (hrun : (scsiSwapLogItemInit E r e.type e.result e.src e.dst e.count).run s = some (a, s')) :
    a.currCount = (if n = 0 then 0 else (r.buffer ((n - 1) % 512)).currCount) + 1 ∧ a.reserved = 0 := by
  unfold scsiSwapLogItemInit at hrun
  rw [run_get_bind] at hrun
  obtain ⟨last, s₁, h1, h2⟩ := run_bind_iff.1 hrun
  obtain ⟨rfl, -⟩ := run_pure_iff.1 h2
  rw [scsiSwapLogLast_pushed h h1]
  refine ⟨?_, rfl⟩
  by_cases hn : n = 0 <;> simp [hn]

/-- The head for a ring, as it is written. -/
def logHeadOf (r : Cspring LogItem) : LogHead :=
  let h : LogHead := ⟨0, .ofInt 16 r.itemNum, .ofInt 16 r.itemNext⟩
  { h with crc := h.crcHead }

/-- The log after `n` entries: in memory, and as far as it goes on the disk. -/
structure Logged (H D n : ℕ) (r : Cspring LogItem) (s : World) : Prop where
  ring : s.log.ring = some r
  sectorHead : s.log.sectorHead = H
  sectorData : s.log.sectorData = D
  pushed : r.Pushed 512 n
  count : ∀ j < min n 512, (r.buffer j).currCount = .ofNat 8 (j + 1)
  reserved : ∀ j < min n 512, (r.buffer j).reserved = 0
  head : 0 < n → s.disk (H % 2 ^ 32) = (logHeadOf r).sector
  /-- The first 16 entries are in the first sector. -/
  first : 0 < n → n ≤ 16 → s.disk (D % 2 ^ 32) = fun i : Fin 512 => ringByte r i
  /-- The second sector has the last byte of the first entry where the number of the 17th belongs. -/
  second : H < D → D + 32 ≤ 2 ^ 32 → 17 ≤ n → s.disk (D + 1) 30 = 0

/-- The last byte of an entry. -/
theorem ringByte_last (r : Cspring LogItem) : ringByte r 31 = (r.buffer 0).reserved := rfl

/-- **One more entry.** -/
theorem push_logged {e : LogEntry} (hne : H % 2 ^ 32 ≠ D % 2 ^ 32) (h : Logged H D n r s)
    (hrun : (e.push E).run s = some (true, s')) : ∃ r', Logged H D (n + 1) r' s' := by
  unfold LogEntry.push scsiSwapLogPush at hrun
  rw [run_get_bind, h.ring] at hrun
  dsimp only at hrun
  obtain ⟨item, s₁, h1, h2⟩ := run_bind_iff.1 hrun
  obtain ⟨hcount, hres⟩ := scsiSwapLogItemInit_fields h.pushed h1
  obtain rfl := scsiSwapLogItemInit_run h1
  obtain ⟨ok, s₂, h3, h4⟩ := run_bind_iff.1 h2
  cases ok with
  | false => exact absurd (run_pure_iff.1 h4).1 (by simp)
  | true =>
    rw [if_pos rfl] at h4
    unfold scsiSwapLogUpdateData at h3
    split at h3
    · exact (run_oops h3).elim
    rename_i slot r' hp
    obtain ⟨r₁, hp₁, hp', hbuf⟩ := h.pushed.push item
    obtain ⟨rfl, rfl⟩ := Prod.mk.inj (Option.some.inj (hp.symm.trans hp₁))
    rw [run_modify_bind, run_get_bind] at h3
    dsimp only at h3
    rw [h.sectorData] at h3
    have hd2 := hdWriteSector_true h3
    have hlog2 : s₂.log = ⟨s₁.log.head, some r', s₁.log.sectorHead, D⟩ := (hdWriteSector_calm h3).log
    unfold scsiSwapLogUpdateHead at h4
    rw [run_get_bind, hlog2] at h4
    dsimp only at h4
    rw [run_set_bind, h.sectorHead] at h4
    have hd3 := hdWriteSector_true h4
    have hlog3 := (hdWriteSector_calm h4).log
    dsimp only at hd2 hd3 hlog3
    have hdisk : s'.disk = Function.update (Function.update s₁.disk ((D + n % 512 * 32 / 512) % 2 ^ 32)
        fun i : Fin 512 => ringByte r' (n % 512 * 32 / 512 + i)) (H % 2 ^ 32) (logHeadOf r').sector := by
      rw [hd3, hd2]
      rfl
    -- the slots in use, and the new one
    have hslots : ∀ j < min (n + 1) 512, r'.buffer j = item ∧ j = n % 512 ∨ r'.buffer j = r.buffer j ∧
        j < min n 512 ∧ j ≠ n % 512 := by
      intro j hj
      by_cases hjn : j = n % 512
      · exact Or.inl ⟨by rw [hbuf, hjn, Function.update_self], hjn⟩
      · exact Or.inr ⟨by rw [hbuf, Function.update_of_ne hjn], by omega, hjn⟩
    refine ⟨r', by rw [hlog3], by rw [hlog3], by rw [hlog3], hp', ?_, ?_, ?_, ?_, ?_⟩
    · intro j hj
      rcases hslots j hj with ⟨hj', rfl⟩ | ⟨hj', hlt, -⟩
      · rw [hj', hcount]
        by_cases hn : n = 0
        · rw [if_pos hn, hn]
          rfl
        · rw [if_neg hn, h.count _ (by omega)]
          refine BitVec.eq_of_toNat_eq ?_
          rw [BitVec.toNat_add, BitVec.toNat_ofNat, BitVec.toNat_ofNat]
          simp
          omega
      · rw [hj']
        exact h.count j hlt
    · intro j hj
      rcases hslots j hj with ⟨hj', rfl⟩ | ⟨hj', hlt, -⟩
      · rw [hj', hres]
      · rw [hj']
        exact h.reserved j hlt
    · intro _
      rw [hdisk, Function.update_self]
    · intro _ hn
      rw [hdisk, Function.update_of_ne hne.symm,
        show n % 512 * 32 / 512 = 0 by omega, Nat.add_zero, Function.update_self]
      simp only [Nat.zero_add]
    · intro hHD hD hn
      rw [hdisk, Function.update_of_ne (by omega)]
      by_cases hsec : n % 512 * 32 / 512 = 1
      · -- this entry goes to the second sector
        rw [hsec, Nat.mod_eq_of_lt (by omega), Function.update_self]
        show ringByte r' 31 = 0
        rw [ringByte_last]
        rcases hslots 0 (by omega) with ⟨-, h0⟩ | ⟨h0, hlt, -⟩
        · omega
        · rw [h0]
          exact h.reserved 0 hlt
      · rw [Function.update_of_ne (by omega)]
        exact h.second hHD hD (by omega)

theorem pushes_logged (hne : H % 2 ^ 32 ≠ D % 2 ^ 32) :
    ∀ {es : List LogEntry} {rs : List Bool} {n : ℕ} {r : Cspring LogItem}
    {s s' : World}, Logged H D n r s → (runAll (LogEntry.push E) es).run s = some (rs, s') →
    (∀ x ∈ rs, x = true) →
    ∃ r', Logged H D (n + es.length) r' s' := by
  intro es
  induction es with
  | nil =>
    intro rs n r s s' h hrun _
    obtain ⟨-, rfl⟩ := run_pure_iff.1 hrun
    exact ⟨r, h⟩
  | cons e es ih =>
    intro rs n r s s' h hrun hok
    obtain ⟨x, s₁, h1, h2⟩ := run_bind_iff.1 hrun
    obtain ⟨xs, s₂, h3, h4⟩ := run_bind_iff.1 h2
    obtain ⟨rfl, rfl⟩ := run_pure_iff.1 h4
    obtain rfl := hok x List.mem_cons_self
    obtain ⟨r₁, h'⟩ := push_logged hne h h1
    obtain ⟨r', hr'⟩ := ih h' h3 fun y hy => hok y (List.mem_cons_of_mem _ hy)
    rw [List.length_cons, show n + (es.length + 1) = n + 1 + es.length by omega]
    exact ⟨r', hr'⟩

/-! ## A restart -/

theorem LogItem.ofBytes_bytes (t : LogItem) : LogItem.ofBytes t.bytes = t := by
  simp [LogItem.ofBytes, LogItem.bytes, LogItem.body]

theorem LogHead.ofSector_sector (h : LogHead) : LogHead.ofSector h.sector = h := by
  simp [LogHead.ofSector, LogHead.sector]

/-- The head of the log on a disk. -/
def logHeadAt (disk : ℕ → Sector) (H : ℕ) : LogHead := LogHead.ofSector (disk (H % 2 ^ 32))

theorem Env.Readable.hdRead (hE : E.Readable) (k sector m : ℕ) (s : World) : (hdReadSector E k sector m).run s =
    some ((true, fun i => if i < m % 2 ^ 16 then some (s.disk (sector % 2 ^ 32 + i)) else none),
      { s with tick := s.tick + 1 }) := by
  rw [hdReadSector_run, hE]
  rfl

/-- `scsi_swap_log_load` finds the log that the head on the disk describes, if its checksum is right. -/
theorem scsiSwapLogLoad_readable {ok : Bool} (hE : E.Readable) (h : (scsiSwapLogLoad E r).run s = some (ok, s')) :
    s'.disk = s.disk ∧ s'.log.sectorHead = s.log.sectorHead ∧ s'.log.sectorData = s.log.sectorData ∧
      s'.log.head = logHeadAt s.disk s.log.sectorHead ∧
      if (logHeadAt s.disk s.log.sectorHead).crc = (logHeadAt s.disk s.log.sectorHead).crcHead then
        ok = true ∧ ∃ r', s'.log.ring = some r' ∧ r'.itemCap = r.itemCap ∧ r'.itemSize = r.itemSize ∧
          ∀ k < 512, r'.buffer k = logItemsOf (fun i => s.disk (s.log.sectorData % 2 ^ 32 + i)) k
      else ok = false ∧ s'.log.ring = s.log.ring := by
  unfold scsiSwapLogLoad at h
  rw [run_get_bind] at h
  obtain ⟨a, s₁, h1, h2⟩ := run_bind_iff.1 h
  obtain ⟨rfl, rfl⟩ := run_det (hE.hdRead 0 s.log.sectorHead 1 s) h1
  dsimp only at h2
  rw [if_pos rfl, run_modify_bind] at h2
  -- the head that is compared is the one just read
  change StateT.run (if (logHeadAt s.disk s.log.sectorHead).crc = (logHeadAt s.disk s.log.sectorHead).crcHead
    then _ else _) _ = _ at h2
  split at h2
  · rename_i hcrc
    obtain ⟨a, s₂, h3, h4⟩ := run_bind_iff.1 h2
    obtain ⟨rfl, rfl⟩ := run_det (hE.hdRead 0 s.log.sectorData 32 _) h3
    dsimp only at h4
    rw [run_modify_bind] at h4
    obtain ⟨rfl, rfl⟩ := run_pure_iff.1 h4
    refine ⟨rfl, rfl, rfl, rfl, ?_⟩
    rw [if_pos hcrc]
    refine ⟨rfl, _, rfl, rfl, rfl, fun k hk => ?_⟩
    have hsec : k / 16 < 32 % 2 ^ 16 := by omega
    have hcap : k < logItemCap := hk
    simp only [logItemsOf, hsec, hcap, if_true, Option.isSome_some, and_self, Option.getD_some]
  · rename_i hcrc
    obtain ⟨rfl, rfl⟩ := run_pure_iff.1 h2
    refine ⟨rfl, rfl, rfl, rfl, ?_⟩
    rw [if_neg hcrc]
    exact ⟨rfl, rfl⟩

/-- The two allocations of `cspring_create`. -/
def CanCreate (E : Env) (s : World) : Prop := E.kmalloc s.tick = true ∧ E.kmalloc (s.tick + 1) = true

/-- The ring made of what is on a disk. -/
def Rebuilt (disk : ℕ → Sector) (H D : ℕ) (r : Cspring LogItem) : Prop :=
  r.Sized 512 ∧
    if (logHeadAt disk H).crc = (logHeadAt disk H).crcHead then
      r.itemNum = (logHeadAt disk H).itemNum.toNat ∧ r.itemNext = (logHeadAt disk H).itemNext.toNat ∧
        ∀ k < 512, r.buffer k = logItemsOf (fun i => disk (D % 2 ^ 32 + i)) k
    else r.itemNum = 0 ∧ r.itemNext = 0

/-- **What an initialisation takes from the disk.** -/
theorem scsiSwapLogInit_ring {b : Bool} (hE : E.Readable) (h : (scsiSwapLogInit E H D).run s = some (b, s')) :
    (¬ CanCreate E s ∧ s'.log.ring = none) ∨
      CanCreate E s ∧ s'.disk = s.disk ∧ s'.log.sectorHead = H ∧ s'.log.sectorData = D ∧
        ∃ r, s'.log.ring = some r ∧ Rebuilt s.disk H D r := by
  unfold scsiSwapLogInit at h
  unfold Rebuilt
  obtain ⟨a, s₁, h1, h2⟩ := run_bind_iff.1 h
  obtain ⟨rfl, rfl⟩ := run_det (kmalloc_run E s) h1
  obtain ⟨b, s₁, h3, h4⟩ := run_bind_iff.1 h2
  by_cases hmem : CanCreate E s
  · right
    rw [if_pos hmem.1] at h3
    obtain ⟨rfl, rfl⟩ := run_det (kmalloc_run E _) h3
    rw [if_pos hmem.2, run_modify_bind] at h4
    obtain ⟨ok, s₂, h5, h6⟩ := run_bind_iff.1 h4
    obtain ⟨hd, hsh, hsd, hhead, hrest⟩ := scsiSwapLogLoad_readable hE h5
    dsimp only at hd hsh hsd hhead hrest
    refine ⟨hmem, ?_⟩
    by_cases hcrc : (logHeadAt s.disk H).crc = (logHeadAt s.disk H).crcHead
    · rw [if_pos hcrc] at hrest
      obtain ⟨rfl, r, hr, hcap, hsize, hbuf⟩ := hrest
      rw [if_pos rfl, run_modify_bind] at h6
      obtain ⟨-, rfl⟩ := run_pure_iff.1 h6
      simp only [hr, hhead, if_pos hcrc]
      exact ⟨hd, hsh, hsd, _, rfl, ⟨hcap, hsize, by decide, by decide⟩, rfl, rfl, hbuf⟩
    · rw [if_neg hcrc] at hrest
      obtain ⟨rfl, hr⟩ := hrest
      obtain ⟨-, rfl⟩ := run_pure_iff.1 h6
      simp only [if_neg hcrc]
      exact ⟨hd, hsh, hsd, _, hr, ⟨rfl, rfl, by decide, by decide⟩, rfl, rfl⟩
  · left
    have hb : b = false := by
      by_cases ha : E.kmalloc s.tick = true
      · rw [if_pos ha] at h3
        obtain ⟨rfl, -⟩ := run_det (kmalloc_run E _) h3
        exact Bool.eq_false_iff.2 fun hb => hmem ⟨ha, hb⟩
      · rw [if_neg ha] at h3
        exact (run_pure_iff.1 h3).1
    rw [hb, if_neg (by simp), run_modify_bind] at h4
    obtain ⟨-, rfl⟩ := run_pure_iff.1 h4
    exact ⟨hmem, rfl⟩

/-- The number of an entry is its byte 30. -/
theorem logItemsOf_currCount (d : ℕ → Sector) : (logItemsOf d 16).currCount = d 1 30 := rfl

theorem ringByte_item (r : Cspring LogItem) (j : ℕ) (i : Fin 32) :
    ringByte r (i + 32 * j) = (r.buffer j).bytes i := by
  have hi := i.isLt
  have hdiv : (i + 32 * j) / 32 = j := by omega
  have hmod : (i + 32 * j) % 32 = i := by omega
  unfold ringByte
  simp only [hdiv, hmod]

/-- What is found of the first 16 entries when the first sector holds them. -/
theorem logItemsOf_first {d : ℕ → Sector} {j : ℕ} (hd : d 0 = fun i : Fin 512 => ringByte r i) (hj : j < 16) :
    logItemsOf d j = r.buffer j := by
  unfold logItemsOf
  rw [Nat.div_eq_of_lt hj, hd]
  refine Eq.trans (congrArg LogItem.ofBytes (funext fun i => ?_)) (r.buffer j).ofBytes_bytes
  rw [← ringByte_item r j i]
  change ringByte r (i + 32 * (j % 16)) = _
  rw [Nat.mod_eq_of_lt hj]

/-- What a restart makes of a log with `n` entries has as many, and what is in the sectors. -/
theorem Logged.rebuilt {r₂ : Cspring LogItem} (h : Logged H D n r s) (hn : 0 < n) (hr : Rebuilt s.disk H D r₂) :
    r₂.Pushed 512 n ∧ ∀ k < 512, r₂.buffer k = logItemsOf (fun i => s.disk (D % 2 ^ 32 + i)) k := by
  have hhead : logHeadAt s.disk H = logHeadOf r := by
    unfold logHeadAt
    rw [h.head hn, LogHead.ofSector_sector]
  obtain ⟨hcap, hr⟩ := hr
  rw [hhead, if_pos (show (logHeadOf r).crc = (logHeadOf r).crcHead from rfl)] at hr
  obtain ⟨hnum, hnext, hbuf⟩ := hr
  refine ⟨⟨hcap, ?_, ?_⟩, hbuf⟩
  · rw [hnum]
    show ((BitVec.ofInt 16 r.itemNum).toNat : ℤ) = _
    rw [h.pushed.num, BitVec.toNat_ofInt]
    omega
  · rw [hnext]
    show ((BitVec.ofInt 16 r.itemNext).toNat : ℤ) = _
    rw [h.pushed.next, BitVec.toNat_ofInt]
    omega

/-- A disk that gave an empty ring gives one again. -/
theorem Rebuilt.empty {disk : ℕ → Sector} {r₂ : Cspring LogItem} (h : Rebuilt disk H D r) (hnum : r.itemNum = 0)
    (hnext : r.itemNext = 0) (h₂ : Rebuilt disk H D r₂) : r₂.Pushed 512 0 := by
  obtain ⟨-, h⟩ := h
  obtain ⟨hcap, h₂⟩ := h₂
  split at h
  · rename_i hcrc
    rw [if_pos hcrc] at h₂
    exact ⟨hcap, by rw [h₂.1, ← h.1, hnum]; rfl, by rw [h₂.2.1, ← h.2.1, hnext]; rfl⟩
  · rename_i hcrc
    rw [if_neg hcrc] at h₂
    exact ⟨hcap, h₂.1, h₂.2⟩

/-- **The log over a restart.** After any number of entries on an empty log, all of them written, an
initialisation that can read the disk makes the same ring again exactly if there were at most 16 entries and
there is memory for a ring. (The last part for disks without a sector beyond the 32 bits of a command.) -/
theorem log_rebuilt_iff {E₀ : Env} {R : ℕ} {w t w' u : World} {b b' : Bool} {es : List LogEntry} {rs : List Bool}
    (hE₀ : E₀.Readable)
    (hinit : (scsiSwapLogInit E₀ (R + swapLogHeadOffset) (R + swapLogDataOffset)).run w = some (b, s))
    (hring : s.log.ring = some r) (hnum : r.itemNum = 0) (hnext : r.itemNext = 0)
    (hpush : (runAll (LogEntry.push E) es).run s = some (rs, t)) (hok : ∀ x ∈ rs, x = true)
    (hE' : E'.Readable) (hdisk : w'.disk = t.disk)
    (hagain : (scsiSwapLogInit E' (R + swapLogHeadOffset) (R + swapLogDataOffset)).run w' = some (b', u)) :
    (es.length ≤ 16 ∧ CanCreate E' w' → u.log.ring.map Cspring.items = t.log.ring.map Cspring.items) ∧
      (R + maxReservedSector ≤ 2 ^ 32 → u.log.ring.map Cspring.items = t.log.ring.map Cspring.items →
        es.length ≤ 16 ∧ CanCreate E' w') := by
  -- the empty log, and the log after all entries
  rcases scsiSwapLogInit_ring hE₀ hinit with ⟨-, hnone⟩ | ⟨-, hd₀, hH, hD, r₀, hr₀, hreb₀⟩
  · rw [hnone] at hring
    exact absurd hring (by simp)
  obtain rfl : r = r₀ := Option.some.inj (hring.symm.trans hr₀)
  have hempty : Logged (R + swapLogHeadOffset) (R + swapLogDataOffset) 0 r s :=
    ⟨hring, hH, hD, ⟨hreb₀.1, hnum, hnext⟩, fun j hj => by omega, fun j hj => by omega, fun h => by omega,
      fun h => by omega, fun _ _ h => by omega⟩
  have hlog : swapLogHeadOffset = 2064384 ∧ swapLogDataOffset = 2066432 ∧ maxReservedSector = 2097152 :=
    ⟨rfl, rfl, rfl⟩
  obtain ⟨r₁, h₁⟩ := pushes_logged (by omega) hempty hpush hok
  rw [Nat.zero_add] at h₁
  rw [h₁.ring]
  rcases scsiSwapLogInit_ring hE' hagain with ⟨hno, hnone⟩ | ⟨hmem, -, -, -, r₂, hr₂, hreb₂⟩
  · rw [hnone]
    exact ⟨fun h => absurd h.2 hno, fun _ h => absurd h (by simp)⟩
  rw [hr₂, Option.map_some, Option.map_some, Option.some.injEq]
  rcases Nat.eq_zero_or_pos es.length with h0 | hpos
  · -- without entries, nothing changed since the first initialisation
    obtain rfl := List.length_eq_zero_iff.1 h0
    obtain ⟨-, rfl⟩ := run_pure_iff.1 hpush
    rw [hdisk, hd₀] at hreb₂
    have h₂ := hreb₀.empty hnum hnext hreb₂
    refine ⟨fun _ => (Cspring.items_eq_iff h₂ h₁.pushed).2 fun j hj => ?_, fun _ _ => ⟨Nat.zero_le _, hmem⟩⟩
    exact absurd hj (Nat.not_lt_zero _)
  · rw [hdisk] at hreb₂
    obtain ⟨h₂, hbuf⟩ := h₁.rebuilt hpos hreb₂
    rw [Cspring.items_eq_iff h₂ h₁.pushed]
    constructor
    · rintro ⟨hle, -⟩ j hj
      rw [hbuf j (by omega)]
      exact logItemsOf_first (d := fun i => t.disk (_ + i)) (by rw [Nat.add_zero, h₁.first hpos hle]) (by omega)
    · intro hR hall
      refine ⟨?_, hmem⟩
      by_contra hlt
      -- the 17th entry has lost its number
      have h16 := hall 16 (by omega)
      rw [hbuf 16 (by omega)] at h16
      have hc := congrArg LogItem.currCount h16
      rw [logItemsOf_currCount, Nat.mod_eq_of_lt (by omega), h₁.second (by omega) (by omega) (by omega),
        h₁.count 16 (by omega)] at hc
      exact absurd hc (by decide)

/-- The numbers of the entries that can be peeked. -/
def Log.numbers (l : Log) : List ℕ :=
  ((l.ring.map Cspring.items).getD []).map fun i => (i.map fun i => i.currCount.toNat).getD 0

/-- A new log, `n` entries, and a restart. What comes out: how far the new log is, which entries were written,
and the numbers of the entries before and after the restart. -/
def logTrial (E : Env) (n : ℕ) : SwapM (Option (ℤ × ℤ) × List Bool × List ℕ × List ℕ) := do
  let _ ← scsiSwapLogInit E swapLogHeadOffset swapLogDataOffset
  let s ← get
  let rs ← runAll (LogEntry.push E) (List.replicate n ⟨1, 0, 8, 49152, 128⟩)
  let t ← get
  let _ ← scsiSwapLogInit E swapLogHeadOffset swapLogDataOffset
  let u ← get
  return (s.log.ring.map fun r => (r.itemNum, r.itemNext), rs, t.log.numbers, u.log.numbers)

theorem logTrial_run {n : ℕ} {w : World} (ns ms : List ℕ)
    (h : ((logTrial E n).run w).map Prod.fst = some (some (0, 0), List.replicate n true, ns, ms)) :
    ∃ b b' s t u r, (scsiSwapLogInit E swapLogHeadOffset swapLogDataOffset).run w = some (b, s) ∧
      s.log.ring = some r ∧
      r.itemNum = 0 ∧ r.itemNext = 0 ∧
      (runAll (LogEntry.push E) (List.replicate n ⟨1, 0, 8, 49152, 128⟩)).run s =
        some (List.replicate n true, t) ∧
      (scsiSwapLogInit E swapLogHeadOffset swapLogDataOffset).run t = some (b', u) ∧
      ns = t.log.numbers ∧ ms = u.log.numbers := by
  obtain ⟨u, h⟩ := run_of_result h
  unfold logTrial at h
  obtain ⟨b, s, h1, h⟩ := run_bind_iff.1 h
  rw [run_get_bind] at h
  obtain ⟨rs, t, h2, h⟩ := run_bind_iff.1 h
  rw [run_get_bind] at h
  obtain ⟨b', u', h3, h⟩ := run_bind_iff.1 h
  rw [run_get_bind] at h
  obtain ⟨he, rfl⟩ := run_pure_iff.1 h
  simp only [Prod.mk.injEq] at he
  obtain ⟨hr, rfl, hns, hms⟩ := he
  obtain ⟨r, hring, hnum⟩ := Option.map_eq_some_iff.1 hr.symm
  obtain ⟨hnum, hnext⟩ := Prod.mk.inj hnum
  exact ⟨b, b', s, t, u, r, h1, hring, hnum, hnext, h2, h3, hns, hms⟩

/-- Sixteen entries on a blank disk are found again. -/
theorem log_rebuilt_iff_sixteen :
    let E := Env.refusing fun _ _ => false
    ∃ b b' s t u, (scsiSwapLogInit E swapLogHeadOffset swapLogDataOffset).run World.blank = some (b, s) ∧
      (runAll (LogEntry.push E) (List.replicate 16 ⟨1, 0, 8, 49152, 128⟩)).run s =
        some (List.replicate 16 true, t) ∧
      (scsiSwapLogInit E swapLogHeadOffset swapLogDataOffset).run t = some (b', u) ∧
      u.log.ring.map Cspring.items = t.log.ring.map Cspring.items := by
  intro E
  have hE : E.Readable := fun _ _ => rfl
  obtain ⟨b, b', s, t, u, r, h1, hr, hnum, hnext, h2, h3, -, -⟩ :=
    logTrial_run (E := E) (n := 16) (w := World.blank)
    (List.range' 1 16) (List.range' 1 16) (by decide +kernel)
  refine ⟨b, b', s, t, u, h1, h2, h3, ?_⟩
  exact (log_rebuilt_iff (R := 0) hE (by rw [Nat.zero_add, Nat.zero_add, h1]) hr hnum hnext h2
    (fun x hx => List.eq_of_mem_replicate hx) hE rfl (by rw [Nat.zero_add, Nat.zero_add, h3])).1
    ⟨by rw [List.length_replicate], rfl, rfl⟩

/-- After seventeen, the last of them comes back as something else. -/
theorem log_not_rebuilt :
    let E := Env.refusing fun _ _ => false
    ∃ b b' s t u r, (scsiSwapLogInit E swapLogHeadOffset swapLogDataOffset).run World.blank = some (b, s) ∧
      s.log.ring = some r ∧ r.itemNum = 0 ∧ r.itemNext = 0 ∧
      (runAll (LogEntry.push E) (List.replicate 17 ⟨1, 0, 8, 49152, 128⟩)).run s =
        some (List.replicate 17 true, t) ∧
      (scsiSwapLogInit E swapLogHeadOffset swapLogDataOffset).run t = some (b', u) ∧
      u.log.ring.map Cspring.items ≠ t.log.ring.map Cspring.items := by
  intro E
  obtain ⟨b, b', s, t, u, r, h1, hr, hnum, hnext, h2, h3, hns, hms⟩ :=
    logTrial_run (E := E) (n := 17) (w := World.blank)
    (List.range' 1 17) (List.range' 1 16 ++ [0]) (by decide +kernel)
  refine ⟨b, b', s, t, u, r, h1, hr, hnum, hnext, h2, h3, fun he => ?_⟩
  have hsame : u.log.numbers = t.log.numbers := by
    unfold Log.numbers
    rw [he]
  rw [← hns, ← hms] at hsame
  exact absurd hsame (by decide)

end ScsiSwap
