import ScsiSwap.Spec.Crc32
import ScsiSwap.Spec.Layout

/-!
# The records on the disk

`struct swap_head`, `struct swap_table` and the two log records, with their bytes. None
of them has padding, so each layout is an equivalence with the byte string of its size.
-/

namespace ScsiSwap

open ByteCodec

/-- The contents of one 512-byte sector. -/
abbrev Sector := Bytes 512

/-- The contents of one swap block (`SWAP_BLOCK_SIZE` bytes). -/
abbrev Block := Fin 128 → Sector

def zeroSector : Sector := fun _ => 0

/-! ## `struct swap_table` -/

/-- One entry of the mapping table. -/
structure SwapTable where
  srcSec : BitVec 64
  swapSec : BitVec 64
  secSize : BitVec 32
  retrys : BitVec 32
  index : BitVec 32
  reserverd : Bytes 24
  checksum : BitVec 32
  saveSec : BitVec 64
  deriving DecidableEq

/-- The first `sizeof (swap_table) - 4 - 8` bytes: the fields the checksum covers. -/
def SwapTable.body (t : SwapTable) : Bytes 52 :=
  Fin.appendEquiv 8 44 (leEquiv 8 t.srcSec, Fin.appendEquiv 8 36 (leEquiv 8 t.swapSec,
    Fin.appendEquiv 4 32 (leEquiv 4 t.secSize, Fin.appendEquiv 4 28 (leEquiv 4 t.retrys,
      Fin.appendEquiv 4 24 (leEquiv 4 t.index, t.reserverd)))))

/-- `swap_crc32(~0, table, sizeof (swap_table) - 4 - 8)`. -/
@[irreducible] def SwapTable.crc (t : SwapTable) : BitVec 32 := swapCrc32 (~~~0) (List.ofFn t.body)

/-- The 64 bytes of a table entry. -/
def swapTableEquiv : SwapTable ≃ Bytes 64 where
  toFun t := Fin.appendEquiv 52 12 (t.body, Fin.appendEquiv 4 8 (leEquiv 4 t.checksum, leEquiv 8 t.saveSec))
  invFun b :=
    let f := (Fin.appendEquiv 52 12).symm b
    let g := (Fin.appendEquiv 4 8).symm f.2
    let b1 := (Fin.appendEquiv 8 44).symm f.1
    let b2 := (Fin.appendEquiv 8 36).symm b1.2
    let b3 := (Fin.appendEquiv 4 32).symm b2.2
    let b4 := (Fin.appendEquiv 4 28).symm b3.2
    let b5 := (Fin.appendEquiv 4 24).symm b4.2
    { srcSec := (leEquiv 8).symm b1.1, swapSec := (leEquiv 8).symm b2.1
      secSize := (leEquiv 4).symm b3.1, retrys := (leEquiv 4).symm b4.1
      index := (leEquiv 4).symm b5.1, reserverd := b5.2
      checksum := (leEquiv 4).symm g.1, saveSec := (leEquiv 8).symm g.2 }
  left_inv t := by simp only [SwapTable.body, Equiv.symm_apply_apply]
  right_inv b := by simp only [SwapTable.body, Equiv.apply_symm_apply, Prod.mk.eta]

instance neZeroSlots : NeZero 8 := ⟨by decide⟩

/-- The eight entries of a table sector. -/
def tableSlots (s : Sector) (j : Fin 8) : SwapTable := swapTableEquiv.symm (chunkEquiv 8 64 s j)

/-- `memcpy(buffer + j * sizeof (swap_table), table, sizeof (swap_table))`. -/
def putTable (s : Sector) (j : Fin 8) (t : SwapTable) : Sector :=
  putChunk (k := 8) (n := 64) s j (swapTableEquiv t)

theorem tableSlots_put (s : Sector) (i : Fin 8) (t : SwapTable) :
    tableSlots (putTable s i t) = Function.update (tableSlots s) i t := by
  funext j
  unfold tableSlots putTable
  rw [chunk_put]
  by_cases h : j = i
  · subst h; simp
  · simp [h]

/-! ## `struct swap_head` -/

/-- The head of the reserve. The bitmap is kept as the little-endian number of its 1024
bits: bit `i` says that spare block `i` is in use. -/
structure SwapHead where
  headString : Bytes 16
  status : Bytes 16
  version : Bytes 4
  bitmap : BitVec 1024
  reserved : Bytes 344
  checksum : BitVec 32

/-- `memset(head, 0, sizeof (struct swap_head))`. -/
def SwapHead.zero : SwapHead := ⟨fun _ => 0, fun _ => 0, fun _ => 0, 0, fun _ => 0, 0⟩

/-- The first `SECTOR_SIZE - 4` bytes. -/
def SwapHead.body (h : SwapHead) : Bytes 508 :=
  Fin.appendEquiv 16 492 (h.headString, Fin.appendEquiv 16 476 (h.status,
    Fin.appendEquiv 4 472 (h.version, Fin.appendEquiv 128 344 (leEquiv 128 h.bitmap, h.reserved))))

/-- `scsi_swap_check`. -/
@[irreducible] def SwapHead.crc (h : SwapHead) : BitVec 32 := swapCrc32 (~~~0) (List.ofFn h.body)

/-- The sector of a head. -/
def swapHeadEquiv : SwapHead ≃ Sector where
  toFun h := Fin.appendEquiv 508 4 (h.body, leEquiv 4 h.checksum)
  invFun s :=
    let f := (Fin.appendEquiv 508 4).symm s
    let b1 := (Fin.appendEquiv 16 492).symm f.1
    let b2 := (Fin.appendEquiv 16 476).symm b1.2
    let b3 := (Fin.appendEquiv 4 472).symm b2.2
    let b4 := (Fin.appendEquiv 128 344).symm b3.2
    { headString := b1.1, status := b2.1, version := b3.1
      bitmap := (leEquiv 128).symm b4.1, reserved := b4.2, checksum := (leEquiv 4).symm f.2 }
  left_inv h := by simp only [SwapHead.body, Equiv.symm_apply_apply]
  right_inv s := by simp only [SwapHead.body, Equiv.apply_symm_apply, Prod.mk.eta]

/-- `strncmp(field, str, str.length) == 0`. -/
def hasPrefix {n : ℕ} (field : Bytes n) (str : List Byte) : Bool := str.isPrefixOf (List.ofFn field)

/-- `strncpy(field, str, len)` for a string of at most `len` bytes: the string, zeros up to
`len`, and the old bytes after that. -/
def strncpy {n : ℕ} (field : Bytes n) (str : List Byte) (len : ℕ) : Bytes n :=
  fun i => if h : i.val < str.length then str.get ⟨i, h⟩ else if i.val < len then 0 else field i

/-- `SWAP_HEAD_STRING`, "DHSWAP". -/
def swapHeadString : List Byte := [0x44, 0x48, 0x53, 0x57, 0x41, 0x50]

/-- `SWAP_VERSION`, "0001". -/
def swapVersion : List Byte := [0x30, 0x30, 0x30, 0x31]

def strValid : List Byte := [0x76, 0x61, 0x6c, 0x69, 0x64]
def strInvalid : List Byte := [0x69, 0x6e, 0x76, 0x61, 0x6c, 0x69, 0x64]

/-- `enum swap_head_state`. -/
inductive HeadState where
  | ok
  | empty
  | broken
  | invalid
  | fail
  deriving DecidableEq, Repr

/-- The part of `swap_get_head_state` that follows a successful read. -/
def SwapHead.state (h : SwapHead) : HeadState :=
  if hasPrefix h.headString swapHeadString then
    if hasPrefix h.status strInvalid then .invalid
    else if hasPrefix h.status strValid then
      if h.crc = h.checksum then .ok else .broken
    else .broken
  else .empty

/-! ### Heads that are marked -/

theorem hasPrefix_iff {n : ℕ} {f : Bytes n} {str : List Byte} : hasPrefix f str = true ↔ str <+: List.ofFn f := by
  unfold hasPrefix
  rw [List.isPrefixOf_iff_prefix]

theorem hasPrefix_strncpy {n : ℕ} (f : Bytes n) {str : List Byte} (len : ℕ) (h : str.length ≤ n) :
    hasPrefix (strncpy f str len) str = true := by
  rw [hasPrefix_iff, List.prefix_iff_eq_take]
  refine List.ext_getElem (by simpa using h) fun i h1 h2 => ?_
  rw [List.getElem_take, List.getElem_ofFn]
  unfold strncpy
  rw [dif_pos h1]
  rfl

/-- The head has its marks: it is one, and it is valid. -/
structure SwapHead.Named (h : SwapHead) : Prop where
  head : hasPrefix h.headString swapHeadString = true
  status : hasPrefix h.status strValid = true

theorem SwapHead.crc_checksum (h : SwapHead) (c : BitVec 32) :
    { h with checksum := c : SwapHead }.crc = h.crc := by
  unfold SwapHead.crc
  rfl

theorem SwapHead.Named.state_ok {h : SwapHead} (hn : h.Named) (hc : h.crc = h.checksum) : h.state = .ok := by
  have hinv : ¬ hasPrefix h.status strInvalid = true := by
    intro hi
    have hp := List.prefix_of_prefix_length_le (hasPrefix_iff.1 hn.status) (hasPrefix_iff.1 hi) (by decide)
    exact absurd (List.isPrefixOf_iff_prefix.2 hp) (by decide)
  unfold SwapHead.state
  rw [if_pos hn.head, if_neg hinv, if_pos hn.status, if_pos hc]

/-- The head with its checksum, as it is written. -/
def SwapHead.seal (h : SwapHead) : SwapHead := { h with checksum := h.crc }

theorem SwapHead.Named.seal_ok {h : SwapHead} (hn : h.Named) : h.seal.state = .ok :=
  SwapHead.Named.state_ok (h := h.seal) ⟨hn.head, hn.status⟩ (h.crc_checksum _)

theorem SwapHead.named_of_ok {h : SwapHead} (hs : h.state = .ok) : h.Named := by
  unfold SwapHead.state at hs
  split at hs
  · rename_i h1
    split at hs
    · exact absurd hs (by simp)
    · split at hs
      · rename_i h3
        exact ⟨h1, h3⟩
      · exact absurd hs (by simp)
  · exact absurd hs (by simp)

theorem SwapHead.crc_of_ok {h : SwapHead} (hs : h.state = .ok) : h.crc = h.checksum := by
  have hn := named_of_ok hs
  by_contra hc
  unfold SwapHead.state at hs
  rw [if_pos hn.head, if_pos hn.status, if_neg hc] at hs
  split at hs <;> exact absurd hs (by simp)

theorem SwapHead.state_ne_fail (h : SwapHead) : h.state ≠ .fail := by
  unfold SwapHead.state
  repeat' split
  all_goals simp

theorem SwapHead.state_invalid {h : SwapHead} (h1 : hasPrefix h.headString swapHeadString = true)
    (h2 : hasPrefix h.status strInvalid = true) : h.state = .invalid := by
  unfold SwapHead.state
  rw [if_pos h1, if_pos h2]

theorem SwapHead.Named.status_zero {h : SwapHead} (hn : h.Named) : h.status 0 = 0x76 := by
  have hp := hasPrefix_iff.1 hn.status
  rw [List.ofFn_succ] at hp
  exact (List.cons_prefix_cons.1 hp).1.symm

theorem SwapHead.status_zero_of_invalid {h : SwapHead} (hs : h.state = .invalid) : h.status 0 = 0x69 := by
  have hstatus : hasPrefix h.status strInvalid = true := by
    by_contra hno
    unfold SwapHead.state at hs
    rw [if_neg hno] at hs
    repeat' split at hs
    all_goals exact absurd hs (by simp)
  have hp := hasPrefix_iff.1 hstatus
  rw [List.ofFn_succ] at hp
  exact (List.cons_prefix_cons.1 hp).1.symm

/-! ## The log records -/

/-- `struct scsi_swap_log_item`. -/
structure LogItem where
  crc : BitVec 32
  time : BitVec 32
  secSrc : BitVec 64
  secDst : BitVec 64
  secCount : BitVec 16
  type : BitVec 8
  result : BitVec 8
  rebootCount : BitVec 8
  fixCount : BitVec 8
  currCount : BitVec 8
  reserved : BitVec 8

/-- The bytes of an item after its checksum. -/
def LogItem.body (t : LogItem) : Bytes 28 :=
  Fin.appendEquiv 4 24 (leEquiv 4 t.time, Fin.appendEquiv 8 16 (leEquiv 8 t.secSrc,
    Fin.appendEquiv 8 8 (leEquiv 8 t.secDst, Fin.appendEquiv 2 6 (leEquiv 2 t.secCount,
      ![t.type, t.result, t.rebootCount, t.fixCount, t.currCount, t.reserved]))))

/-- The 32 bytes of an item. -/
def LogItem.bytes (t : LogItem) : Bytes 32 := Fin.appendEquiv 4 28 (leEquiv 4 t.crc, t.body)

/-- An item from its 32 bytes. -/
def LogItem.ofBytes (b : Bytes 32) : LogItem :=
  let f := (Fin.appendEquiv 4 28).symm b
  let b1 := (Fin.appendEquiv 4 24).symm f.2
  let b2 := (Fin.appendEquiv 8 16).symm b1.2
  let b3 := (Fin.appendEquiv 8 8).symm b2.2
  let b4 := (Fin.appendEquiv 2 6).symm b3.2
  { crc := (leEquiv 4).symm f.1, time := (leEquiv 4).symm b1.1
    secSrc := (leEquiv 8).symm b2.1, secDst := (leEquiv 8).symm b3.1
    secCount := (leEquiv 2).symm b4.1, type := b4.2 0, result := b4.2 1, rebootCount := b4.2 2
    fixCount := b4.2 3, currCount := b4.2 4, reserved := b4.2 5 }

/-- `scsi_swap_log_crc_item`. -/
def LogItem.crcItem (t : LogItem) : BitVec 32 := swapCrc32 0xffffffff (List.ofFn t.body)

/-- `struct scsi_swap_log_head`. -/
structure LogHead where
  crc : BitVec 32
  itemNum : BitVec 16
  itemNext : BitVec 16

/-- `scsi_swap_log_crc_head`. -/
def LogHead.crcHead (h : LogHead) : BitVec 32 :=
  swapCrc32 0xffffffff (List.ofFn (Fin.appendEquiv 2 2 (leEquiv 2 h.itemNum, leEquiv 2 h.itemNext)))

/-- The head, copied to the front of a zeroed sector. -/
def LogHead.sector (h : LogHead) : Sector :=
  Fin.appendEquiv 8 504 (Fin.appendEquiv 4 4 (leEquiv 4 h.crc,
    Fin.appendEquiv 2 2 (leEquiv 2 h.itemNum, leEquiv 2 h.itemNext)), fun _ => 0)

/-- The head at the front of a sector. -/
def LogHead.ofSector (s : Sector) : LogHead :=
  let f := (Fin.appendEquiv 4 4).symm ((Fin.appendEquiv 8 504).symm s).1
  let g := (Fin.appendEquiv 2 2).symm f.2
  { crc := (leEquiv 4).symm f.1, itemNum := (leEquiv 2).symm g.1, itemNext := (leEquiv 2).symm g.2 }

end ScsiSwap
