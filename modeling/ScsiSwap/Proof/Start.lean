import ScsiSwap.Proof.Contents

/-!
# Starting on an all-zero reserve

`scsiSwapInit_zero`: an initialisation that returns 0 on an all-zero reserve ends with an empty
list of mappings and the invariant in place. Commands may fail on the way. The search for a
head may then run over the table area (it tries 1024 blocks of 64 KiB, and the head area
has room for 128), so what a failed write of the initialisation leaves behind must not
pass for a table entry, checksum included.
-/

namespace ScsiSwap

open StateOption ByteCodec

variable {E : Env} {s s' : World} {R : ℕ}

/-! ## Sectors that hold no table entry -/

/-- The sector does not start with a valid table entry. -/
def NoEntry (sec : Sector) : Prop := (tableSlots sec 0).valid = false

/-- What failed writes leave behind does not pass for a table entry. -/
def Env.NoForgedEntry (E : Env) : Prop :=
  ∀ t c buf junk nc k sec, E.write t c buf = .fail junk nc → junk k = some sec → NoEntry sec

theorem refusing_noForgedEntry (refuses : Cmd → (ℕ → Sector) → Bool) : (Env.refusing refuses).NoForgedEntry := by
  intro t c buf junk nc k sec hf hj
  simp only [Env.refusing] at hf
  split at hf
  · cases hf; simp at hj
  · cases hf

/-- No sector of the reserve, under the 32-bit address it has in a command, passes for a
table sector. -/
def NoTable (R : ℕ) (disk : ℕ → Sector) : Prop :=
  ∀ k < maxReservedSector, NoEntry (disk ((R + k) % 2 ^ 32))

theorem tableSlots_byte (sec : Sector) : leEquiv 4 (tableSlots sec 0).secSize 0 = sec 16 := by
  have h : swapTableEquiv (tableSlots sec 0) = chunkEquiv 8 64 sec 0 := by
    unfold tableSlots
    rw [Equiv.apply_symm_apply]
  exact congrFun h 16

theorem noEntry_of_byte {sec : Sector} (h : sec 16 ≠ 0x80) : NoEntry sec := by
  unfold NoEntry SwapTable.valid
  rw [decide_eq_false_iff_not]
  rintro ⟨hs, -⟩
  refine h ?_
  rw [← tableSlots_byte sec, hs]
  decide

theorem noEntry_zero : NoEntry zeroSector := noEntry_of_byte (by decide)

theorem noEntry_head {h : SwapHead} (hs : h.status 0 ≠ 0x80) : NoEntry (swapHeadEquiv h) := by
  refine noEntry_of_byte ?_
  exact hs

/-! ## Finding or creating a head -/

/-- A step of the initialisation: the geometry stays, but for the place of the head, and no
table sector appears that was not there. -/
structure Boot (R : ℕ) (s s' : World) : Prop where
  geom : { s'.geom with head := 0 } = { s.geom with head := 0 }
  disk : ∀ k < maxReservedSector, s'.disk ((R + k) % 2 ^ 32) = s.disk ((R + k) % 2 ^ 32) ∨
    NoEntry (s'.disk ((R + k) % 2 ^ 32))

theorem Boot.refl (s : World) : Boot R s s := ⟨rfl, fun _ _ => Or.inl rfl⟩

theorem Boot.trans {a b c : World} (h1 : Boot R a b) (h2 : Boot R b c) : Boot R a c := by
  refine ⟨h2.geom.trans h1.geom, fun k hk => ?_⟩
  rcases h2.disk k hk with h | h
  · rw [h]; exact h1.disk k hk
  · exact Or.inr h

theorem Boot.noTable (h : Boot R s s') (hd : NoTable R s.disk) : NoTable R s'.disk := by
  intro k hk
  rcases h.disk k hk with h | h
  · rw [h]; exact hd k hk
  · exact h

theorem setHead_boot (h : SwapHead) : Boot R s (s.setHead h) := ⟨rfl, fun _ _ => Or.inl rfl⟩

theorem Dev.boot (h : Dev (fun _ => False) s s') : Boot R s s' :=
  ⟨by rw [h.geom]; rfl, fun _ _ => Or.inl (h.disk _ id)⟩

theorem hdWriteSector_boot {w : Writer} {r sector n : ℕ} {buf : ℕ → Sector} {a : Bool} (hE : E.NoForgedEntry)
    (h : (hdWriteSector E w r sector n buf).run s = some (a, s')) (hbuf : ∀ k, NoEntry (buf k)) :
    Boot R s s' := by
  refine ⟨by rw [(hdWriteSector_dev h).geom]; rfl, fun k hk => ?_⟩
  rw [hdWriteSector_run] at h
  obtain ⟨-, rfl⟩ := Prod.mk.inj (Option.some.inj h)
  dsimp only
  split
  · cases hio : E.write s.tick ⟨sector % 2 ^ 32, n % 2 ^ 16, r⟩ buf with
    | ok => exact Or.inr (hbuf _)
    | fail junk nc =>
      dsimp only
      cases hj : junk ((R + k) % 2 ^ 32 - sector % 2 ^ 32) with
      | none => exact Or.inl rfl
      | some sec => exact Or.inr (hE _ _ _ _ _ _ _ hio hj)
  · exact Or.inl rfl

theorem flushSwapHead_boot {a : Bool} (hE : E.NoForgedEntry) (h : (flushSwapHead E).run s = some (a, s'))
    (hs : s.core.head.status 0 ≠ 0x80) : Boot R s s' ∧ s'.core.sectorHead = s.core.sectorHead := by
  have hd := flushSwapHead_dev h
  unfold flushSwapHead at h
  rw [run_get_bind] at h
  dsimp only at h
  rw [run_set_bind] at h
  obtain ⟨b, s₁, h1, h2⟩ := run_bind_iff.1 h
  refine ⟨?_, congrArg Geom.head hd.geom⟩
  refine (setHead_boot _).trans ((hdWriteSector_boot hE h1 fun _ => noEntry_head hs).trans ?_)
  exact hdWriteSector_boot hE h2 fun _ => noEntry_head hs

theorem swapCreateNewHead'_boot {a : Bool} (hE : E.NoForgedEntry)
    (h : (swapCreateNewHead' E).run s = some (a, s')) (hs : s.core.head.status 0 ≠ 0x80) :
    Boot R s s' ∧ s'.core.sectorHead = s.core.sectorHead := by
  unfold swapCreateNewHead' at h
  rw [run_modify_bind] at h
  obtain ⟨hb, hh⟩ := flushSwapHead_boot (R := R) hE h hs
  exact ⟨(setHead_boot _).trans hb, hh⟩

theorem swapCheckBlockBySector_boot (hE : E.NoForgedEntry) {secStart : ℕ} :
    ∀ {n i : ℕ} {s s' : World} {a : Option ℕ},
      (swapCheckBlockBySector E secStart n i).run s = some (a, s') →
        Boot R s s' ∧ s'.core.sectorHead = s.core.sectorHead := by
  intro n
  induction n with
  | zero =>
    intro i s s' a h
    obtain ⟨-, rfl⟩ := run_pure_iff.1 h
    exact ⟨Boot.refl _, rfl⟩
  | succ n ih =>
    intro i s s' a h
    obtain ⟨ok, s₁, h1, h2⟩ := run_bind_iff.1 h
    have hb : Boot R s s₁ := hdWriteSector_boot hE h1 fun _ => noEntry_zero
    have hh : s₁.core.sectorHead = s.core.sectorHead := congrArg Geom.head (hdWriteSector_dev h1).geom
    cases ok with
    | true =>
      obtain ⟨hb', hh'⟩ := ih h2
      exact ⟨hb.trans hb', hh'.trans hh⟩
    | false =>
      obtain ⟨-, rfl⟩ := run_pure_iff.1 h2
      exact ⟨hb, hh⟩

theorem markInvalid_boot (hE : E.NoForgedEntry) {badIdx : ℕ} {u : PUnit}
    (h : (markInvalid E badIdx).run s = some (u, s')) :
    Boot R s s' ∧ s'.core.sectorHead = s.core.sectorHead := by
  unfold markInvalid at h
  split at h
  · rw [run_modify_bind] at h
    obtain ⟨b, s₁, h1, h2⟩ := run_bind_iff.1 h
    obtain ⟨-, rfl⟩ := run_pure_iff.1 h2
    obtain ⟨hb, hh⟩ := swapCreateNewHead'_boot (R := R) hE h1 (by show (0x69 : Byte) ≠ 0x80; decide)
    exact ⟨(setHead_boot _).trans hb, hh⟩
  · obtain ⟨-, rfl⟩ := run_pure_iff.1 h
    exact ⟨Boot.refl _, rfl⟩

/-- The loop over candidate blocks, from block number `j` of the head area on. -/
theorem createHeadLoop_boot (hE : E.NoForgedEntry) :
    ∀ {n j : ℕ} {s s' : World} {a : Bool}, (createHeadLoop E n).run s = some (a, s') →
      j + n = maxSwapHeadBlockNum → s.core.sectorHead = R + swapHeadOffest + 128 * j →
      Boot R s s' ∧ (a = true → ∃ j < maxSwapHeadBlockNum, s'.core.sectorHead =
        R + swapHeadOffest + 128 * j) := by
  intro n
  induction n with
  | zero =>
    intro j s s' a h _ _
    obtain ⟨rfl, rfl⟩ := run_pure_iff.1 h
    exact ⟨Boot.refl _, by simp⟩
  | succ n ih =>
    intro j s s' a h hj hs
    unfold createHeadLoop at h
    rw [run_get_bind] at h
    obtain ⟨o, s₁, h1, h2⟩ := run_bind_iff.1 h
    obtain ⟨hb1, hh1⟩ := swapCheckBlockBySector_boot (R := R) hE h1
    cases o with
    | none =>
      dsimp only at h2
      rw [run_modify_bind] at h2
      obtain ⟨hb2, hh2⟩ := swapCreateNewHead'_boot (R := R) hE h2 (by show (0x76 : Byte) ≠ 0x80; decide)
      exact ⟨hb1.trans ((setHead_boot _).trans hb2), fun _ => ⟨j, by omega, by rw [hh2]; exact hh1.trans hs⟩⟩
    | some badIdx =>
      dsimp only at h2
      obtain ⟨u, s₂, h3, h4⟩ := run_bind_iff.1 h2
      obtain ⟨hb2, hh2⟩ := markInvalid_boot (R := R) hE h3
      rw [run_modify_bind] at h4
      obtain ⟨hb3, hh3⟩ := ih (j := j + 1) h4 (by omega) (by
        show s₂.core.sectorHead + 128 = _
        rw [hh2, hh1, hs]; omega)
      exact ⟨(hb1.trans hb2).trans ⟨hb3.geom, hb3.disk⟩, hh3⟩

/-! ### Its bitmap -/

/-- The bitmap is the same. -/
def SameBits (s s' : World) : Prop := s'.core.head.bitmap = s.core.head.bitmap

theorem SameBits.refl (s : World) : SameBits s s := rfl

theorem SameBits.trans : ∀ a b c : World, SameBits a b → SameBits b c → SameBits a c :=
  fun _ _ _ h h' => Eq.trans h' h

theorem hdWriteSectorRetry_sameBits (w : Writer) (sector n : ℕ) (buf : ℕ → Sector) :
    Carries SameBits (hdWriteSectorRetry E w sector n buf) := by
  intro s a s' h
  exact (hdWriteSector_dev h).bitmap

theorem swapCheckBlockBySector_sameBits (secStart : ℕ) : ∀ n i,
    Carries SameBits (swapCheckBlockBySector E secStart n i) := by
  intro n
  induction n with
  | zero => exact fun _ => .pure SameBits.refl _
  | succ n ih =>
    intro i
    unfold swapCheckBlockBySector
    exact .bind SameBits.trans (hdWriteSectorRetry_sameBits _ _ _ _) fun _ => .ite (ih _) (.pure SameBits.refl _)

theorem swapCreateNewHead'_sameBits : Carries SameBits (swapCreateNewHead' E) := by
  intro s a s' h
  unfold swapCreateNewHead' at h
  rw [run_modify_bind] at h
  exact (flushSwapHead_dev h).bitmap

theorem markInvalid_sameBits (badIdx : ℕ) : Carries SameBits (markInvalid E badIdx) := by
  refine .ite (.bind SameBits.trans (.modify fun _ => rfl) fun _ => ?_) (.pure SameBits.refl _)
  exact .bind SameBits.trans swapCreateNewHead'_sameBits fun _ => .pure SameBits.refl _

/-- A new head has no block in use. -/
theorem createHeadLoop_sameBits : ∀ n, Carries SameBits (createHeadLoop E n) := by
  intro n
  induction n with
  | zero => exact .pure SameBits.refl _
  | succ n ih =>
    unfold createHeadLoop
    refine .get_bind fun _ => .bind SameBits.trans (swapCheckBlockBySector_sameBits _ _ _) fun o => ?_
    cases o with
    | none => exact .bind SameBits.trans (.modify fun _ => rfl) fun _ => swapCreateNewHead'_sameBits
    | some badIdx =>
      refine .bind SameBits.trans (markInvalid_sameBits badIdx) fun _ => ?_
      exact .bind SameBits.trans (.modify fun _ => rfl) fun _ => ih

theorem repairBackup_sameBits (secStart : ℕ) (head : SwapHead) (stBack : HeadState) :
    Carries SameBits (repairBackup E secStart head stBack) :=
  .ite (.bind SameBits.trans (hdWriteSectorRetry_sameBits _ _ _ _) fun _ => .pure SameBits.refl _)
    (.pure SameBits.refl _)

/-- A new head has an empty bitmap. -/
theorem swapCreateNewHead_bits {a : Bool} (h : (swapCreateNewHead E).run s = some (a, s')) :
    s'.core.head.bitmap = 0 := by
  unfold swapCreateNewHead at h
  rw [run_modify_bind] at h
  exact createHeadLoop_sameBits _ _ _ _ h

/-! ### The search -/

theorem swapGetHeadState_dev {sector : ℕ} {old head : SwapHead} {st : HeadState}
    (h : (swapGetHeadState E sector old).run s = some ((st, head), s')) :
    Dev (fun _ => False) s s' ∧ (st = .ok → head.state = .ok) := by
  unfold swapGetHeadState at h
  obtain ⟨⟨ok, buf⟩, s₁, h1, h2⟩ := run_bind_iff.1 h
  obtain ⟨e, rfl⟩ := run_pure_iff.1 h2
  obtain ⟨rfl, rfl⟩ := Prod.mk.inj e
  refine ⟨hdReadSector_dev h1, fun hst => ?_⟩
  cases ok with
  | true => exact hst
  | false => exact absurd hst (by simp)

/-- The search for a head, over any disk. -/
theorem initHeadLoop_boot (hE : E.NoForgedEntry) :
    ∀ {n j secStart : ℕ} {s s' : World}, (initHeadLoop E n secStart).run s = some (true, s') →
      j + n = maxSwapHeadBlockNum → secStart = R + swapHeadOffest + 128 * j →
      s.core.sectorHead = R + swapHeadOffest →
      Boot R s s' ∧ ∃ j < maxSwapHeadBlockNum, s'.core.sectorHead = R + swapHeadOffest + 128 * j := by
  intro n
  induction n with
  | zero =>
    intro j secStart s s' h _ _ _
    unfold initHeadLoop at h
    obtain ⟨u, s₁, h1, h2⟩ := run_bind_iff.1 h
    exact absurd (run_pure_iff.1 h2).1 (by simp)
  | succ n ih =>
    intro j secStart s s' h hj hs hh
    subst hs
    unfold initHeadLoop at h
    rw [run_get_bind] at h
    obtain ⟨⟨st, head⟩, s₁, h1, h2⟩ := run_bind_iff.1 h
    obtain ⟨hd1, hst⟩ := swapGetHeadState_dev h1
    have hb1 : Boot R s (s₁.setHead head) := hd1.boot.trans (setHead_boot head)
    have hh1 : (s₁.setHead head).core.sectorHead = R + swapHeadOffest := (congrArg Geom.head hd1.geom).trans hh
    dsimp only at h2
    rw [run_modify_bind] at h2
    split at h2
    · -- an invalid block: the next one
      obtain ⟨hb3, hh3⟩ := ih (j := j + 1) h2 (by omega) (by omega) hh1
      exact ⟨hb1.trans hb3, hh3⟩
    obtain ⟨⟨stBack, headBack⟩, s₂, h3, h4⟩ := run_bind_iff.1 h2
    obtain ⟨hd2, hst2⟩ := swapGetHeadState_dev h3
    have hb2 : Boot R s s₂ := hb1.trans hd2.boot
    have hh2 : s₂.core.sectorHead = R + swapHeadOffest := (congrArg Geom.head hd2.geom).trans hh1
    dsimp only at h4
    split at h4
    · -- neither copy can be read: the next block
      obtain ⟨hb3, hh3⟩ := ih (j := j + 1) h4 (by omega) (by omega) hh2
      exact ⟨hb2.trans hb3, hh3⟩
    -- a good head does not pass for a table sector, so it may be copied
    have hcopy : ∀ x : SwapHead, x.state = .ok → ∀ {sector : ℕ} {t t' : World} {a : Bool},
        (hdWriteSectorRetry E .head sector 1 fun _ => swapHeadEquiv x).run t = some (a, t') → Boot R t t' := by
      intro x hx sector t t' a hw
      refine hdWriteSector_boot hE hw fun _ => noEntry_head ?_
      rw [(SwapHead.named_of_ok hx).status_zero]
      decide
    split at h4
    · rename_i hok
      obtain ⟨u, s₃, h5, h6⟩ := run_bind_iff.1 h4
      have hb3 : Boot R s₂ s₃ := by
        unfold repairBackup at h5
        split at h5
        · obtain ⟨ok, s₄, h7, h8⟩ := run_bind_iff.1 h5
          obtain ⟨-, rfl⟩ := run_pure_iff.1 h8
          exact hcopy _ (hst hok) h7
        · obtain ⟨-, rfl⟩ := run_pure_iff.1 h5
          exact Boot.refl _
      rw [run_modify_bind] at h6
      obtain ⟨-, rfl⟩ := run_pure_iff.1 h6
      exact ⟨hb2.trans ⟨hb3.geom, hb3.disk⟩, j, by omega, rfl⟩
    split at h4
    · rename_i hok
      rw [run_modify_bind] at h4
      obtain ⟨ok, s₃, h5, h6⟩ := run_bind_iff.1 h4
      have hb3 := (setHead_boot (R := R) (s := s₂) headBack).trans (hcopy _ (hst2 hok) h5)
      rw [run_modify_bind] at h6
      obtain ⟨-, rfl⟩ := run_pure_iff.1 h6
      exact ⟨hb2.trans ⟨hb3.geom, hb3.disk⟩, j, by omega, rfl⟩
    obtain ⟨ok, s₃, h5, h6⟩ := run_bind_iff.1 h4
    cases ok with
    | false =>
      rw [if_neg (by simp)] at h6
      obtain ⟨u, s₄, h7, h8⟩ := run_bind_iff.1 h6
      exact absurd (run_pure_iff.1 h8).1 (by simp)
    | true =>
      obtain ⟨-, rfl⟩ := run_pure_iff.1 h6
      unfold swapCreateNewHead at h5
      rw [run_modify_bind] at h5
      obtain ⟨hb3, hh3⟩ := createHeadLoop_boot (R := R) hE (j := 0) h5 (Nat.zero_add _)
        (by rw [Nat.mul_zero, Nat.add_zero]; exact hh2)
      exact ⟨(hb2.trans (setHead_boot _)).trans hb3, hh3 rfl⟩

/-- The reserve is all zero. -/
def ZeroReserve (R : ℕ) (disk : ℕ → Sector) : Prop :=
  ∀ k < maxReservedSector, disk ((R + k) % 2 ^ 32) = zeroSector

theorem ZeroReserve.noTable {disk : ℕ → Sector} (h : ZeroReserve R disk) : NoTable R disk := by
  intro k hk
  rw [h k hk]
  exact noEntry_zero

/-! ## Loading an empty table -/

theorem validEntries_noEntry {sec : Sector} (h : NoEntry sec) : validEntries sec = 0 := by
  unfold validEntries
  rw [show List.finRange 8 = 0 :: (List.finRange 7).map Fin.succ from List.finRange_succ]
  rw [List.takeWhile_cons_of_neg (by rw [h]; simp)]
  rfl

theorem calcSwapInfoNum_zero :
    ∀ {n k total num : ℕ} {s s' : World}, (calcSwapInfoNum E n (R + k) total).run s = some (num, s') →
      NoTable R s.disk → k + n ≤ maxReservedSector → num = total ∧ Dev (fun _ => False) s s' := by
  intro n
  induction n with
  | zero =>
    intro k total num s s' h _ _
    obtain ⟨rfl, rfl⟩ := run_pure_iff.1 h
    exact ⟨rfl, Dev.refl _⟩
  | succ n ih =>
    intro k total num s s' h hc hk
    obtain ⟨⟨ok, buf⟩, s₁, h3, h4⟩ := run_bind_iff.1 h
    have hd : Dev (fun _ => False) s s₁ := hdReadSector_dev h3
    have hdisk : s₁.disk = s.disk := funext fun x => hd.disk x id
    dsimp only at h4
    cases ok with
    | false =>
      obtain ⟨hnum, hd'⟩ := ih (k := k + 1) h4 (hdisk ▸ hc) (by omega)
      exact ⟨hnum, hd.dev hd'⟩
    | true =>
      have hb := hdReadSector_ok h3 (Or.inl rfl) 0 (by decide)
      dsimp only at hb
      rw [if_pos rfl, hb, Nat.add_zero, Option.getD_some, validEntries_noEntry (hc k (by omega)),
        if_pos (by omega)] at h4
      obtain ⟨rfl, rfl⟩ := run_pure_iff.1 h4
      exact ⟨rfl, hd⟩

/-- With no table, `init_swap_info` loads nothing. -/
theorem initSwapInfo_zero {a : Bool} (h : (initSwapInfo E).run s = some (a, s')) (hc : NoTable R s.disk)
    (hr : s.core.sectorReserveStart = R) (ht : s.core.sectorTable = R + swapTableOffset) :
    s'.geom = s.geom ∧ s'.core.infoList = [] ∧ s'.core.infoNum = 0 := by
  unfold initSwapInfo at h
  rw [run_modify_bind, run_get_bind] at h
  dsimp only at h
  obtain ⟨num, s₁, h1, h2⟩ := run_bind_iff.1 h
  obtain ⟨numBack, s₂, h3, h4⟩ := run_bind_iff.1 h2
  simp only [ht, hr] at h1 h3
  obtain ⟨rfl, hd1⟩ := calcSwapInfoNum_zero h1 hc
    (by simp only [swapTableOffset, sector8M, swpaTableNSector, maxReservedSector]; omega)
  obtain ⟨rfl, hd2⟩ := calcSwapInfoNum_zero h3 (fun k hk => by rw [hd1.disk _ id]; exact hc k hk)
    (by simp only [swapTableBackupOffset, sector8M, swpaTableNSector, maxReservedSector]; omega)
  rw [if_neg (by omega), if_neg (by omega), if_pos rfl] at h4
  obtain ⟨rfl, rfl⟩ := run_pure_iff.1 h4
  have hd := hd1.dev hd2
  refine ⟨?_, congrArg View.list hd.view, congrArg View.num hd.view⟩
  rw [hd.geom]
  simp only [World.view, World.geom, ht, hr]

/-! ## The whole initialisation -/

/-- The head part of `scsi_swap_core_init`: the sectors are set, and the table is loaded from a
disk on which no table sector is new. -/
theorem scsiSwapCoreInit_boot (hE : E.NoForgedEntry) (h : (scsiSwapCoreInit E R).run s = some (true, s')) :
    ∃ s₁ s₂, (initSwapInfo E).run s₁ = some (true, s₂) ∧
      s' = { s₂ with core := { s₂.core with deviceDead := 0, user := 0 } } ∧
      (∀ k < maxReservedSector, s₁.disk ((R + k) % 2 ^ 32) = s.disk ((R + k) % 2 ^ 32) ∨
        NoEntry (s₁.disk ((R + k) % 2 ^ 32))) ∧
      s₁.core.sectorReserveStart = R ∧ s₁.core.sectorTable = R + swapTableOffset ∧
      s₁.core.sectorData = R + swapDataOffset ∧
      ∃ j < maxSwapHeadBlockNum, s₁.core.sectorHead = R + swapHeadOffest + 128 * j := by
  unfold scsiSwapCoreInit at h
  rw [run_modify_bind] at h
  obtain ⟨ok, s₁, h1, h2⟩ := run_bind_iff.1 h
  cases ok with
  | false => exact absurd (run_pure_iff.1 h2).1 (by simp)
  | true =>
    obtain ⟨hb, hh⟩ := initHeadLoop_boot hE (j := 0) h1 (Nat.zero_add _) rfl rfl
    have hr : s₁.core.sectorReserveStart = R := congrArg Geom.reserve hb.geom
    have ht : s₁.core.sectorTable = R + swapTableOffset := congrArg Geom.table hb.geom
    have hdt : s₁.core.sectorData = R + swapDataOffset := congrArg Geom.data hb.geom
    rw [if_pos rfl] at h2
    obtain ⟨ok, s₂, h3, h4⟩ := run_bind_iff.1 h2
    cases ok with
    | false =>
      rw [if_neg (by simp)] at h4
      obtain ⟨u, s₃, h5, h6⟩ := run_bind_iff.1 h4
      exact absurd (run_pure_iff.1 h6).1 (by simp)
    | true =>
      rw [if_pos rfl, run_modify_bind] at h4
      obtain ⟨-, rfl⟩ := run_pure_iff.1 h4
      exact ⟨s₁, s₂, h3, rfl, hb.disk, hr, ht, hdt, hh⟩

theorem scsiSwapCoreInit_zero (hE : E.NoForgedEntry) (hz : ZeroReserve R s.disk)
    (h : (scsiSwapCoreInit E R).run s = some (true, s')) :
    s'.core.infoList = [] ∧ s'.core.infoNum = 0 ∧
      s'.geom.reserve = R ∧ s'.geom.table = R + swapTableOffset ∧ s'.geom.data = R + swapDataOffset ∧
      (∃ j < maxSwapHeadBlockNum, s'.geom.head = R + swapHeadOffest + 128 * j) := by
  obtain ⟨s₁, s₂, h3, rfl, hdisk, hr, ht, hdt, j, hj, hh⟩ := scsiSwapCoreInit_boot hE h
  have hc : NoTable R s₁.disk := by
    intro k hk
    rcases hdisk k hk with he | he
    · rw [he]; exact hz.noTable k hk
    · exact he
  obtain ⟨hg2, hl, hn⟩ := initSwapInfo_zero h3 hc hr ht
  refine ⟨hl, hn, ?_, ?_, ?_, j, hj, ?_⟩
  · exact (congrArg Geom.reserve hg2).trans hr
  · exact (congrArg Geom.table hg2).trans ht
  · exact (congrArg Geom.data hg2).trans hdt
  · exact (congrArg Geom.head hg2).trans hh

theorem scsiSwapLogLoad_dev {r : Cspring LogItem} {a : Bool} (h : (scsiSwapLogLoad E r).run s = some (a, s'))
    (hr : s.log.ring = some r) : Dev (fun _ => False) s s' := by
  unfold scsiSwapLogLoad at h
  rw [run_get_bind] at h
  obtain ⟨⟨ok, buf⟩, s₁, h1, h2⟩ := run_bind_iff.1 h
  have hd1 : Dev (fun _ => False) s s₁ := hdReadSector_dev h1
  dsimp only at h2
  split at h2
  swap
  · obtain ⟨-, rfl⟩ := run_pure_iff.1 h2
    exact hd1
  rw [run_modify_bind] at h2
  have hd2 : Dev (fun _ => False) s
      { s₁ with log := { s₁.log with head := LogHead.ofSector ((buf 0).getD zeroSector) } } :=
    ⟨hd1.view, hd1.disk, hd1.dead⟩
  split at h2
  swap
  · obtain ⟨-, rfl⟩ := run_pure_iff.1 h2
    exact hd2
  obtain ⟨⟨ok', buf'⟩, s₂, h3, h4⟩ := run_bind_iff.1 h2
  have hd3 := hd2.dev (hdReadSector_dev h3)
  dsimp only at h4
  rw [run_modify_bind] at h4
  obtain ⟨-, rfl⟩ := run_pure_iff.1 h4
  refine ⟨?_, hd3.disk, hd3.dead⟩
  rw [← hd3.view]
  have hcap : s₂.log.ring.map (·.itemCap) = some r.itemCap := by
    have := congrArg Geom.logCap hd3.geom
    rw [show s.view.geom.logCap = some r.itemCap by simp [World.view, World.geom, hr]] at this
    exact this
  simp only [World.view, World.geom, Option.map_some, hcap]

/-- The log comes up with a ring of 512 items at its place in the reserve, or without one. -/
theorem scsiSwapLogInit_view {head data : ℕ} {a : Bool} (h : (scsiSwapLogInit E head data).run s = some (a, s')) :
    (∀ x, s'.disk x = s.disk x) ∧ ∃ g : Geom, s'.view = { s.view with geom := g } ∧
      g = { s.geom with logHead := g.logHead, logData := g.logData, logCap := g.logCap } ∧
      ∀ cap ∈ g.logCap, cap = logItemCap ∧ g.logHead = head ∧ g.logData = data := by
  unfold scsiSwapLogInit at h
  obtain ⟨x, s₁, h1, h2⟩ := run_bind_iff.1 h
  obtain ⟨y, s₂, h3, h4⟩ := run_bind_iff.1 h2
  have hd : Dev (fun _ => False) s s₂ := by
    refine (kmalloc_dev h1).dev ?_
    cases x with
    | true => exact kmalloc_dev h3
    | false =>
      obtain ⟨-, rfl⟩ := run_pure_iff.1 h3
      exact Dev.refl _
  have hv : s₂.view = s.view := hd.view
  have hg : s₂.geom = s.geom := hd.geom
  cases y with
  | false =>
    rw [if_neg (by simp), run_modify_bind] at h4
    obtain ⟨-, rfl⟩ := run_pure_iff.1 h4
    refine ⟨fun x => hd.disk x id, { s.geom with logCap := none }, ?_, rfl, by simp⟩
    rw [← hv, ← hg]
    rfl
  | true =>
    rw [if_pos rfl] at h4
    dsimp only at h4
    rw [run_modify_bind] at h4
    obtain ⟨ok, s₃, h5, h6⟩ := run_bind_iff.1 h4
    have hld := scsiSwapLogLoad_dev h5 rfl
    have hv3 : s₃.view = { s.view with
        geom := { s.geom with logHead := head, logData := data, logCap := some (logItemCap : ℤ) } } := by
      rw [hld.view, ← hv, ← hg]
      rfl
    have hdisk : ∀ x, s₃.disk x = s.disk x := fun x => (hld.disk x id).trans (hd.disk x id)
    have hs' : s'.view = s₃.view ∧ s'.disk = s₃.disk := by
      cases ok with
      | false =>
        obtain ⟨-, rfl⟩ := run_pure_iff.1 h6
        exact ⟨rfl, rfl⟩
      | true =>
        rw [if_pos rfl, run_modify_bind] at h6
        obtain ⟨-, rfl⟩ := run_pure_iff.1 h6
        refine ⟨?_, rfl⟩
        simp only [World.view, World.geom, Option.map_map]
        rfl
    refine ⟨fun x => by rw [hs'.2]; exact hdisk x, _, hs'.1.trans hv3, rfl, ?_⟩
    rintro cap ⟨⟩
    exact ⟨rfl, rfl, rfl⟩

/-- A start on an all-zero reserve that returned 0 has loaded no mapping. -/
theorem scsiSwapInit_empty (hE : E.NoForgedEntry) (hz : ZeroReserve R s.disk)
    (h : (scsiSwapInit E R).run s = some (true, s')) :
    s'.core.infoList = [] ∧ s'.core.infoNum = 0 ∧ s'.geom.reserve = R ∧
      (R + maxReservedSector ≤ 2 ^ 32 → s'.geom.Ok) := by
  unfold scsiSwapInit at h
  obtain ⟨ok, s₁, h1, h2⟩ := run_bind_iff.1 h
  have hd : Dev (fun _ => False) s s₁ := kmalloc_dev h1
  cases ok with
  | false => exact absurd (run_pure_iff.1 h2).1 (by simp)
  | true =>
    rw [if_pos rfl, run_modify_bind] at h2
    obtain ⟨ok, s₂, h3, h4⟩ := run_bind_iff.1 h2
    cases ok with
    | false => exact absurd (run_pure_iff.1 h4).1 (by simp)
    | true =>
      have hz1 : ZeroReserve R s₁.disk := fun k hk => (hd.disk _ id).trans (hz k hk)
      obtain ⟨hl, hn, g1, g2, g3, j, hj, g4⟩ := scsiSwapCoreInit_zero (s := s₁.fresh) hE hz1 h3
      rw [if_pos rfl] at h4
      obtain ⟨b, s₃, h5, h6⟩ := run_bind_iff.1 h4
      obtain ⟨-, rfl⟩ := run_pure_iff.1 h6
      obtain ⟨-, g, hv, hg, hlog⟩ := scsiSwapLogInit_view h5
      have e1 : g.reserve = R := by rw [hg]; exact g1
      have e2 : g.table = R + swapTableOffset := by rw [hg]; exact g2
      have e3 : g.data = R + swapDataOffset := by rw [hg]; exact g3
      have e4 : g.head = R + swapHeadOffest + 128 * j := by rw [hg]; exact g4
      have hgeom : s'.geom = g := congrArg View.geom hv
      refine ⟨(congrArg View.list hv).trans hl, (congrArg View.num hv).trans hn, hgeom ▸ e1, fun hR => ?_⟩
      rw [hgeom]
      refine ⟨by rw [e1]; exact hR, by rw [e1]; exact e2, by rw [e1]; exact e3, ?_, ?_⟩
      · simp only [swapHeadOffest, sector8M, maxSwapHeadBlockNum] at hj e4 ⊢
        rw [e1, e4]
        omega
      · rw [e1]; exact hlog

/-- **A successful start on an all-zero reserve** ends with the invariant and no mapping. -/
theorem scsiSwapInit_zero (hE : E.NoForgedEntry) (hR : R + maxReservedSector ≤ 2 ^ 32)
    (hz : ZeroReserve R s.disk) (h : (scsiSwapInit E R).run s = some (true, s')) :
    s'.view.Inv ∧ s'.view.geom.reserve = R ∧ s'.core.infoList = [] := by
  obtain ⟨hl, hn, hr, hg⟩ := scsiSwapInit_empty hE hz h
  have hlist : s'.view.list = [] := hl
  refine ⟨⟨hg hR, ?_, ?_, ?_, ?_, ?_, ?_⟩, hr, hl⟩
  · rw [hlist]; exact hn
  · rw [hlist]; exact Nat.zero_le _
  all_goals rw [hlist]; simp

end ScsiSwap
