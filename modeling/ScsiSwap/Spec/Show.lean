import ScsiSwap.Spec.Log

/-!
# sysfs pages

`scsi_swap_core_show`, `scsi_swap_log_show` and `scsi_swap_sim_show` print one line for each entry of a list: into
a line buffer first, and from there, as long as there is room, to a page of `PAGE_SIZE` bytes. All their
formats are numbers with a space between them and a newline at the end.
-/

namespace ScsiSwap

/-- `PAGE_SIZE`. -/
abbrev pageSize : ℕ := 4096

/-- Memory from the first byte of the page on, as far as it goes and beyond. -/
abbrev PageMem : Type := ℕ → Char

/-! ## Text -/

/-- `%u`, `%llu`, and `%d` of a number that is not negative. -/
def decimal (n : ℕ) : List Char := Nat.toDigits 10 n

/-- A line with these numbers. -/
def lineOf : List ℕ → List Char
  | [] => ['\n']
  | [n] => decimal n ++ ['\n']
  | n :: ns => decimal n ++ ' ' :: lineOf ns

/-- `snprintf`: the text that ends up in a buffer of `size` bytes, and the value returned, which is the
length the text would have had. -/
def snprintf (size : ℕ) (text : List Char) : List Char × ℤ := (text.take (size - 1), text.length)

/-- `strcpy`: the text and a zero byte, from address `dst` on. -/
def strcpy (mem : PageMem) (dst : ℕ) (text : List Char) : PageMem := fun a =>
  if dst ≤ a then ((text ++ ['\x00'])[a - dst]?).getD (mem a) else mem a

/-! ## The loop -/

/-- The loop over the lines, with a line buffer of `size` bytes. What it leaves: `left`, and the page. -/
def showLoop (size : ℕ) : List (List Char) → ℤ → PageMem → ℤ × PageMem
  | [], left, page => (left, page)
  | line :: lines, left, page =>
    let (buf, len) := snprintf size line
    if left ≤ len then (left, page)
    else showLoop size lines (left - len) (strcpy page (u64 (pageSize - left)) buf)

/-- The whole function: the value returned, and the page. -/
def showLines (size : ℕ) (lines : List (List Char)) (page : PageMem) : ℤ × PageMem :=
  let r := showLoop size lines pageSize page
  (s32 (pageSize - r.1), r.2)

/-! ## The mappings -/

def SwapTable.line (t : SwapTable) : List Char := lineOf [t.srcSec.toNat, t.swapSec.toNat, t.secSize.toNat]

/-- `scsi_swap_core_show`. -/
def scsiSwapCoreShow (s : World) (page : PageMem) : ℤ × PageMem :=
  showLines 64 (s.core.infoList.map fun p => (s.heap p).table.line) page

/-! ## The log -/

def LogItem.line (t : LogItem) : List Char :=
  lineOf [t.time.toNat, t.secSrc.toNat, t.secDst.toNat, t.secCount.toNat, t.type.toNat, t.result.toNat,
    t.rebootCount.toNat, t.fixCount.toNat, t.currCount.toNat]

/-- The loop of `scsi_swap_log_show`: the items are peeked one by one, until there is none or no room. There are
at most `fuel` of them. -/
def scsiSwapLogShowLoop (r : Cspring LogItem) : ℕ → ℤ → ℤ → PageMem → SwapM (ℤ × PageMem)
  | fuel, i, left, page => do
    match ← scsiSwapLogPeek r i with
    | none => return (left, page)
    | some item =>
      let (buf, len) := snprintf 256 item.line
      if left ≤ len then return (left, page)
      else match fuel with
        | 0 => return (left, page)
        | fuel + 1 => scsiSwapLogShowLoop r fuel (i + 1) (left - len) (strcpy page (u64 (pageSize - left)) buf)

/-- `scsi_swap_log_show`. -/
def scsiSwapLogShow (page : PageMem) : SwapM (ℤ × PageMem) := do
  let s ← get
  match s.log.ring with
  | none => oops
  | some r =>
    let (left, page) ← scsiSwapLogShowLoop r r.itemNum.toNat 0 pageSize page
    return (s32 (pageSize - left), page)

end ScsiSwap
