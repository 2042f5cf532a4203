import ScsiSwap.Proof.Divert

/-!
# The data of a write bio

`swap_bio_work_handler` gives `core_write` a buffer of `bi_size` bytes and fills it from the segments of the
bio. Nothing makes the two lengths agree: a bio that discards sectors has no data, one that writes the
same data everywhere has one block of it.

* `bioFillBuf_eq`: byte `k` of the buffer, from the segments;
* `buffer_from_bio_iff`: all of the buffer comes from the bio if and only if the segments reach to the
  end of it, and their pages have addresses.
-/

namespace ScsiSwap

open StateOption ByteCodec

variable {E : Env} {s s' : World} {v : BioVec} {vecs pre post : List BioVec} {k n : ℕ}

/-- The segments of a bio, one after the other. -/
def bioBytes (vecs : List BioVec) : List Byte := vecs.flatMap BioVec.bytes

/-- Byte `k` of the segments, if it is in a page with an address. -/
def sourceByte : List BioVec → ℕ → Option Byte
  | [], _ => none
  | v :: vs, k =>
    if k < v.bytes.length then (if v.mapped then v.bytes[k]? else none) else sourceByte vs (k - v.bytes.length)

theorem sourceByte_cons (v : BioVec) (vs : List BioVec) (k : ℕ) : sourceByte (v :: vs) k =
    if k < v.bytes.length then (if v.mapped then v.bytes[k]? else none)
    else sourceByte vs (k - v.bytes.length) := rfl

/-! ## The buffer -/

/-- **A byte of the buffer** is the byte of the segments at the same place. -/
theorem bioFillBufFrom_eq {len : ℤ} : ∀ {vecs : List BioVec} {p : ℕ} {buf : ℕ → Option Byte} {k : ℕ},
    (∀ j, p ≤ j → buf j = none) → (k : ℤ) < len →
    bioFillBufFrom len vecs p buf k = if k < p then buf k else sourceByte vecs (k - p) := by
  intro vecs
  induction vecs with
  | nil =>
    intro p buf k hbuf _
    unfold bioFillBufFrom sourceByte
    split
    · rfl
    · exact hbuf k (by omega)
  | cons v vs ih =>
    intro p buf k hbuf hk
    unfold bioFillBufFrom
    by_cases hp : (p : ℤ) < len
    · have hnew : ∀ j, p + v.bytes.length ≤ j → (if v.mapped then memcpy buf p v.bytes else buf) j = none := by
        intro j hj
        split
        · exact (if_neg (by omega)).trans (hbuf j (by omega))
        · exact hbuf j (by omega)
      rw [if_pos hp, ih hnew hk]
      by_cases h1 : k < p
      · -- before this segment
        rw [if_pos (by omega), if_pos h1]
        split
        · exact if_neg (by omega)
        · rfl
      · rw [if_neg h1, sourceByte_cons]
        by_cases h2 : k < p + v.bytes.length
        · rw [if_pos h2, if_pos (show k - p < v.bytes.length by omega)]
          split
          · exact if_pos ⟨by omega, h2⟩
          · exact hbuf k (by omega)
        · rw [if_neg h2, if_neg (show ¬ k - p < v.bytes.length by omega)]
          congr 1
          omega
    · -- past the end: no segment is copied any more, and `k` lies before
      rw [if_neg hp, ih hbuf hk, if_pos (by omega), if_pos (by omega)]

theorem bioFillBuf_eq {len : ℤ} (hk : (k : ℤ) < len) : bioFillBuf vecs len k = sourceByte vecs k := by
  unfold bioFillBuf
  rw [bioFillBufFrom_eq (fun _ _ => rfl) hk]
  rfl

/-! ## The segments -/

theorem bioBytes_append : bioBytes (pre ++ v :: post) = bioBytes pre ++ (v.bytes ++ bioBytes post) := by
  unfold bioBytes
  rw [List.flatMap_append, List.flatMap_cons]

theorem bioBytes_at {j : ℕ} (hj : j < v.bytes.length) :
    (bioBytes (pre ++ v :: post))[(bioBytes pre).length + j]? = v.bytes[j]? := by
  rw [bioBytes_append, List.getElem?_append_right (Nat.le_add_right _ _), Nat.add_sub_cancel_left,
    List.getElem?_append_left hj]

theorem sourceByte_at : ∀ {pre : List BioVec} {j : ℕ}, j < v.bytes.length →
    sourceByte (pre ++ v :: post) ((bioBytes pre).length + j) = if v.mapped then v.bytes[j]? else none := by
  intro pre
  induction pre with
  | nil =>
    intro j hj
    have hzero : (bioBytes []).length + j = j := Nat.zero_add j
    rw [hzero]
    exact if_pos hj
  | cons u us ih =>
    intro j hj
    have hlen : (bioBytes (u :: us)).length = u.bytes.length + (bioBytes us).length := by
      unfold bioBytes
      rw [List.flatMap_cons, List.length_append]
    rw [hlen, ← ih hj]
    refine (if_neg (by omega)).trans ?_
    congr 1
    omega

/-- Every byte is in a segment. -/
theorem exists_segment_of_lt : ∀ {vecs : List BioVec} {k : ℕ}, k < (bioBytes vecs).length →
    ∃ pre v post j, vecs = pre ++ v :: post ∧ k = (bioBytes pre).length + j ∧ j < v.bytes.length := by
  intro vecs
  induction vecs with
  | nil =>
    intro k hk
    exact absurd hk (Nat.not_lt_zero k)
  | cons v vs ih =>
    intro k hk
    have hlen : ∀ us, (bioBytes (v :: us)).length = v.bytes.length + (bioBytes us).length := by
      intro us
      unfold bioBytes
      rw [List.flatMap_cons, List.length_append]
    by_cases h : k < v.bytes.length
    · exact ⟨[], v, vs, k, rfl, (Nat.zero_add k).symm, h⟩
    · rw [hlen] at hk
      obtain ⟨pre, w, post, j, rfl, hj, hlt⟩ := ih (k := k - v.bytes.length) (by omega)
      refine ⟨v :: pre, w, post, j, rfl, ?_, hlt⟩
      rw [hlen]
      omega

/-- The segments `vecs` have addressable data for the first `n` bytes. -/
structure Covers (vecs : List BioVec) (n : ℕ) : Prop where
  length : n ≤ (bioBytes vecs).length
  mapped : ∀ pre v post, vecs = pre ++ v :: post → (bioBytes pre).length < n → v.bytes ≠ [] → v.mapped = true

theorem covers_iff :
    Covers vecs n ↔ ∀ k < n, ∃ c, (bioBytes vecs)[k]? = some c ∧ sourceByte vecs k = some c := by
  constructor
  · intro h k hk
    obtain ⟨pre, v, post, j, rfl, rfl, hj⟩ := exists_segment_of_lt (hk.trans_le h.length)
    have hne : v.bytes ≠ [] := by
      rintro he
      rw [he] at hj
      exact absurd hj (Nat.not_lt_zero j)
    have hm := h.mapped pre v post rfl (by omega) hne
    rw [bioBytes_at hj, sourceByte_at hj, if_pos hm]
    exact ⟨v.bytes[j], List.getElem?_eq_getElem hj, List.getElem?_eq_getElem hj⟩
  · intro h
    constructor
    · by_contra hlt
      obtain ⟨c, hc, -⟩ := h (bioBytes vecs).length (by omega)
      rw [List.getElem?_eq_none le_rfl] at hc
      exact absurd hc (by simp)
    · rintro pre v post rfl hlt hne
      have hj : 0 < v.bytes.length := List.length_pos_iff.2 hne
      obtain ⟨c, -, hc⟩ := h _ hlt
      have hat : sourceByte (pre ++ v :: post) ((bioBytes pre).length + 0) =
          if v.mapped then v.bytes[0]? else none :=
        sourceByte_at hj
      rw [Nat.add_zero, hc] at hat
      by_contra hm
      rw [if_neg hm] at hat
      exact absurd hat (by simp)

/-! ## Diverted bios -/

section

variable {b : Bdev} {bio : Bio} {item : SwapBioItem}

/-- The handler of a write bio passes that buffer to `core_write`. -/
theorem swapBioWriteHandler_eq (hw : bio.isWrite = true) (mem : ℕ → Byte) :
    swapBioWriteHandler E item bio vecs mem = (do
      let ok ← kmalloc E
      if ok ∧ 0 ≤ item.size then
        let r ← scsiSwapCoreWrite E item.startSec (item.size.toNat >>> 9) item.badSec
          (bufferSectors mem (item.buffer vecs))
        if r = .err then return -eio else return 0
      else return -eio) := by
  unfold swapBioWriteHandler swapBioWorkHandler
  rw [bind_assoc]
  refine bind_congr fun ok => ?_
  split
  · have hserve : (item.request bio (bufferSectors mem (item.buffer vecs))).serve E = (do
        let r ← scsiSwapCoreWrite E item.startSec (item.size.toNat >>> 9) item.badSec
          (bufferSectors mem (item.buffer vecs))
        return ⟨r, bufferSectors mem (item.buffer vecs)⟩) := if_pos hw
    rw [hserve, bind_assoc, bind_assoc]
    refine bind_congr fun r => ?_
    rw [pure_bind]
    dsimp only
    split <;> rfl
  · rfl

/-- **The data of a diverted bio.** Every byte of the buffer that `swap_bio_work_handler` passes on for a
diverted bio was copied from the segments, from its place in them, if and only if the segments have `bi_size`
bytes and the pages of those bytes have addresses. -/
theorem buffer_from_bio_iff (h : (genericMakeRequest E b bio).run s = some (.diverted item, s'))
    (vecs : List BioVec) :
    (∀ k : ℕ, (k : ℤ) < item.size → ∃ c, (bioBytes vecs)[k]? = some c ∧ item.buffer vecs k = some c) ↔
      Covers vecs (s32 bio.size).toNat := by
  rw [covers_iff, (genericMakeRequest_diverted h).1]
  constructor
  · intro hbuf k hk
    have hlt : (k : ℤ) < s32 bio.size := by omega
    obtain ⟨c, hc, hk⟩ := hbuf k hlt
    exact ⟨c, hc, (bioFillBuf_eq hlt).symm.trans hk⟩
  · intro hsrc k hk
    have hlt : (k : ℤ) < s32 bio.size := hk
    obtain ⟨c, hc, hs⟩ := hsrc k (by omega)
    exact ⟨c, hc, (bioFillBuf_eq hk).trans hs⟩

end

/-- The last byte of a write of one sector to a mapped block. -/
theorem buffer_from_bio_iff_sector :
    ∃ c, (bioBytes [⟨List.replicate 512 1, true⟩])[511]? = some c ∧
      SwapBioItem.buffer ⟨0, 512, noBadSec⟩ [⟨List.replicate 512 1, true⟩] 511 = some c := by
  have hdiv : (genericMakeRequest (Env.refusing fun _ _ => false) (.disk 1000) ⟨true, 0, 512, true⟩).run
      (mapping 0) = _ :=
    mapping_diverts rfl (by decide) (by decide) (by decide)
  refine (buffer_from_bio_iff hdiv _).2 ⟨by decide +kernel, ?_⟩ 511 (by decide)
  intro pre v post hv _ _
  have hmem : v ∈ [⟨List.replicate 512 1, true⟩] := by
    rw [hv]
    simp
  rw [List.mem_singleton.1 hmem]

/-- A bio that discards a mapped block, and one that writes the same sector everywhere in it: both are
diverted, and both are served by a write of memory that nothing was copied to. -/
theorem buffer_not_from_bio :
    ∃ s', (genericMakeRequest (Env.refusing fun _ _ => false) (.disk 1000) ⟨true, 0, 65536, true⟩).run
      (mapping 0) =
        some (.diverted ⟨0, 65536, noBadSec⟩, s') ∧
      SwapBioItem.buffer ⟨0, 65536, noBadSec⟩ [] 0 = none ∧
      SwapBioItem.buffer ⟨0, 65536, noBadSec⟩ [⟨List.replicate 512 1, true⟩] 512 = none :=
  ⟨_, mapping_diverts rfl (by decide) (by decide) (by decide), rfl, by decide +kernel⟩

end ScsiSwap
