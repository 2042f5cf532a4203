import ScsiSwap.Proof.Ring
import ScsiSwap.Spec.Session
import ScsiSwap.Spec.Sim

/-!
# What is shown in sysfs

* `lineOf_length_le`: how long a line can get, `SwapTable.line_fits`, `LogItem.line_fits`, `SimNode.line_fits`:
  not longer than the line buffer;
* `Written t page page'`: a page after the text `t`, `Written.strcpy`: and one more line;
* `showLoop_shown`: the loop prints the lines that fit, `scsiSwapLogShow_run`: and so does that of the log;
* `shows_stay_in_page`: nothing is written beyond the page, and the text is that of the longest prefix that fits.
-/

namespace ScsiSwap

open StateOption

variable {page page' : PageMem} {size : ℕ} {lines : List (List Char)}

/-! ## Lines -/

theorem decimal_length_le {n w : ℕ} (hw : 0 < w) (h : n < 10 ^ w) : (decimal n).length ≤ w :=
  (Nat.length_toDigits_le_iff (by decide) hw).2 h

theorem lineOf_ne_nil (ns : List ℕ) : lineOf ns ≠ [] := by
  match ns with
  | [] => simp [lineOf]
  | [n] => simp [lineOf]
  | n :: m :: ns => simp [lineOf]

/-- A line is as long as its numbers, and a character more for each of them. -/
theorem lineOf_length_le (ws : List ℕ) {ns : List ℕ} (h : List.Forall₂ (fun n w => 0 < w ∧ n < 10 ^ w) ns ws) :
    (lineOf ns).length ≤ ws.sum + max 1 ws.length := by
  fun_induction lineOf ns generalizing ws with
  | case1 =>
    show 1 ≤ _
    omega
  | case2 n =>
    obtain ⟨w, vs, ⟨hw, hn⟩, hrest, rfl⟩ := List.forall₂_cons_left_iff.1 h
    have hlen := decimal_length_le hw hn
    rw [List.length_append, List.length_singleton, List.sum_cons]
    omega
  | case3 n ns hns ih =>
    obtain ⟨w, vs, ⟨hw, hn⟩, hrest, rfl⟩ := List.forall₂_cons_left_iff.1 h
    have hlen := decimal_length_le hw hn
    have hvs : 0 < vs.length := by
      rw [← hrest.length_eq]
      exact List.length_pos_iff.2 hns
    have hih := ih vs hrest
    rw [List.length_append, List.length_cons, List.sum_cons, List.length_cons]
    omega

theorem SwapTable.line_fits (t : SwapTable) : t.line.length < 64 := by
  have h1 := t.srcSec.isLt
  have h2 := t.swapSec.isLt
  have h3 := t.secSize.isLt
  refine (lineOf_length_le [20, 20, 10] ?_).trans_lt (by decide)
  exact .cons ⟨by decide, by omega⟩ (.cons ⟨by decide, by omega⟩ (.cons ⟨by decide, by omega⟩ .nil))

theorem SimNode.line_fits (node : SimNode) : node.line.length < 64 := by
  have h1 := node.start.isLt
  have h2 := node.num.isLt
  refine (lineOf_length_le [20, 10] ?_).trans_lt (by decide)
  exact .cons ⟨by decide, by omega⟩ (.cons ⟨by decide, by omega⟩ .nil)

theorem LogItem.line_fits (t : LogItem) : t.line.length < 256 := by
  have h1 := t.time.isLt
  have h2 := t.secSrc.isLt
  have h3 := t.secDst.isLt
  have h4 := t.secCount.isLt
  have hbyte : ∀ b : BitVec 8, 0 < 3 ∧ b.toNat < 10 ^ 3 := fun b => ⟨by decide, b.isLt.trans (by decide)⟩
  refine (lineOf_length_le [10, 20, 20, 5, 3, 3, 3, 3, 3] ?_).trans_lt (by decide)
  refine .cons ⟨by decide, by omega⟩ (.cons ⟨by decide, by omega⟩ (.cons ⟨by decide, by omega⟩
    (.cons ⟨by decide, by omega⟩ ?_)))
  exact .cons (hbyte _) (.cons (hbyte _) (.cons (hbyte _) (.cons (hbyte _) (.cons (hbyte _) .nil))))

/-! ## The page -/

/-- The page after the text `t`, which ends with a zero byte unless nothing was written. -/
structure Written (t : List Char) (page page' : PageMem) : Prop where
  text : ∀ a x, t[a]? = some x → page' a = x
  ended : t ≠ [] → page' t.length = '\x00'
  unchanged : ∀ a, t.length < a ∨ t = [] → page' a = page a

theorem Written.nil (page : PageMem) : Written [] page page :=
  ⟨fun a x h => by simp at h, fun h => absurd rfl h, fun _ _ => rfl⟩

/-- One more line. -/
theorem Written.strcpy {t line : List Char} (h : Written t page page') (hline : line ≠ []) :
    Written (t ++ line) page (strcpy page' t.length line) := by
  have hpos := List.length_pos_iff.2 hline
  refine ⟨fun a x hx => ?_, fun _ => ?_, fun a ha => ?_⟩
  · unfold ScsiSwap.strcpy
    rcases Nat.lt_or_ge a t.length with hlt | hge
    · rw [List.getElem?_append_left hlt] at hx
      rw [if_neg (by omega)]
      exact h.text a x hx
    · rw [List.getElem?_append_right hge] at hx
      have hlt := (List.getElem?_eq_some_iff.1 hx).1
      rw [if_pos hge, List.getElem?_append_left hlt, hx]
      rfl
  · unfold ScsiSwap.strcpy
    rw [List.length_append, if_pos (by omega), List.getElem?_append_right (by omega),
      show t.length + line.length - t.length - line.length = 0 by omega]
    rfl
  · have hlt : t.length + line.length < a := by
      rcases ha with ha | ha
      · rwa [List.length_append] at ha
      · exact absurd (List.append_eq_nil_iff.1 ha).2 hline
    unfold ScsiSwap.strcpy
    rw [if_pos (by omega), List.getElem?_eq_none (by simp; omega), Option.getD_none]
    exact h.unchanged a (Or.inl (by omega))

/-! ## The loop -/

/-- What is to be shown: nothing is cut off in the line buffer of `size` bytes, the page gets the lines of the
longest prefix that is shorter than a page, and the length of that text is returned. -/
structure Shown (size : ℕ) (lines : List (List Char)) (page : PageMem) (r : ℤ × PageMem) : Prop where
  whole : ∀ line ∈ lines, (snprintf size line).1 = line
  longest : ∃ k ≤ lines.length, (lines.take k).flatten.length < pageSize ∧
    (∀ k' ≤ lines.length, (lines.take k').flatten.length < pageSize → k' ≤ k) ∧
    r.1 = (lines.take k).flatten.length ∧ Written (lines.take k).flatten page r.2
  inside : ∀ a, pageSize ≤ a → r.2 a = page a

/-- Lines that fit into the line buffer. -/
def LinesFit (size : ℕ) (lines : List (List Char)) : Prop := ∀ line ∈ lines, line ≠ [] ∧ line.length < size

theorem snprintf_whole {line : List Char} (h : line.length < size) :
    snprintf size line = (line, (line.length : ℤ)) := by
  unfold snprintf
  rw [List.take_of_length_le (by omega)]

/-- The loop stops at the end of the list, or before the first line that would fill the page. -/
theorem showLoop_prefix {t : List Char} (hfit : LinesFit size lines) (ht : t.length < pageSize)
    (h : Written t page page') :
    ∃ k ≤ lines.length, ∃ q,
      showLoop size lines (pageSize - t.length) page' =
        ((pageSize : ℤ) - (t ++ (lines.take k).flatten).length, q) ∧
      Written (t ++ (lines.take k).flatten) page q ∧ (t ++ (lines.take k).flatten).length < pageSize ∧
      (k < lines.length → pageSize ≤ (t ++ (lines.take (k + 1)).flatten).length) := by
  induction lines generalizing t page' with
  | nil => exact ⟨0, le_rfl,
      page', by simp [showLoop], by simpa using h, by simpa using ht, fun hk => absurd hk (by simp)⟩
  | cons line lines ih =>
    obtain ⟨hne, hlen⟩ := hfit line List.mem_cons_self
    unfold showLoop
    rw [snprintf_whole hlen]
    dsimp only
    by_cases hroom : (pageSize : ℤ) - t.length ≤ line.length
    · rw [if_pos hroom]
      refine ⟨0, Nat.zero_le _, page', by simp, by simpa using h, by simpa using ht, fun _ => ?_⟩
      rw [List.take_succ_cons, List.take_zero, List.flatten_cons, List.flatten_nil, List.append_nil,
        List.length_append]
      omega
    · rw [if_neg hroom]
      have hdst : u64 ((pageSize : ℤ) - (pageSize - t.length)) = t.length := by
        have : pageSize = 4096 := rfl
        unfold u64
        omega
      have hlen' : (t ++ line).length < pageSize := by rw [List.length_append]; omega
      have hleft : (pageSize : ℤ) - t.length - line.length = pageSize - (t ++ line).length := by
        rw [List.length_append]; omega
      rw [hdst, hleft]
      obtain ⟨k, hk, q, hq, hw, hlt, hmax⟩ :=
        ih (fun l hl => hfit l (List.mem_cons_of_mem _ hl)) hlen' (h.strcpy hne)
      rw [List.append_assoc, ← List.flatten_cons, ← List.take_succ_cons] at hq hw hlt
      rw [List.append_assoc, ← List.flatten_cons, ← List.take_succ_cons] at hmax
      exact ⟨k + 1, Nat.succ_le_succ hk, q, hq, hw, hlt, fun hk' => hmax (Nat.lt_of_succ_lt_succ hk')⟩

theorem take_flatten_length_mono {k k' : ℕ} (h : k ≤ k') :
    (lines.take k).flatten.length ≤ (lines.take k').flatten.length := by
  have hsplit : lines.take k ++ (lines.take k').drop k = lines.take k' := by
    have := List.take_append_drop k (lines.take k')
    rwa [List.take_take, Nat.min_eq_left h] at this
  rw [← hsplit, List.flatten_append, List.length_append]
  exact Nat.le_add_right ..

/-- **What the loop shows.** -/
theorem showLines_shown (hfit : LinesFit size lines) (page : PageMem) :
    Shown size lines page (showLines size lines page) := by
  obtain ⟨k, hk, q, hq, hw, hlt, hmax⟩ := showLoop_prefix (t := []) hfit (by decide) (.nil page)
  rw [List.nil_append] at hq hw hlt hmax
  have hr : showLines size lines page = (((lines.take k).flatten.length : ℤ), q) := by
    unfold showLines
    rw [List.length_nil, Nat.cast_zero, sub_zero] at hq
    rw [hq]
    have : pageSize = 4096 := rfl
    refine Prod.ext ?_ rfl
    dsimp only
    unfold s32
    omega
  rw [hr]
  refine ⟨fun line hl => congrArg Prod.fst (snprintf_whole (hfit line hl).2),
    ⟨k, hk, hlt, fun k' hk' hlt' => ?_, rfl, hw⟩,
    fun a ha => hw.unchanged a (Or.inl (by omega))⟩
  by_contra hgt
  have hle : (lines.take (k + 1)).flatten.length ≤ (lines.take k').flatten.length :=
    take_flatten_length_mono (by omega)
  have := hmax (by omega)
  omega

/-! ## The log -/

variable {s : World} {r : Cspring LogItem} {items : List LogItem}

/-- The loop of `scsi_swap_log_show` is the same loop, over the items that are left. -/
theorem scsiSwapLogShowLoop_run : ∀ {items : List LogItem} {i left : ℤ} {page : PageMem}, 0 ≤ i →
    r.itemNum = i + items.length → (∀ (j : ℕ) x, items[j]? = some x → r.peek (i + j) = some x) →
    (scsiSwapLogShowLoop r items.length i left page).run s =
      some (showLoop 256 (items.map LogItem.line) left page, s) := by
  intro items
  induction items with
  | nil =>
    intro i left page hi hnum _
    rw [List.length_nil, Nat.cast_zero, add_zero] at hnum
    unfold scsiSwapLogShowLoop
    rw [run_bind_of (scsiSwapLogPeek_null (by omega))]
    rfl
  | cons item items ih =>
    intro i left page hi hnum hpeek
    rw [List.length_cons, Nat.cast_succ] at hnum
    have hitem : r.peek i = some item := by simpa using hpeek 0 item rfl
    unfold scsiSwapLogShowLoop
    rw [run_bind_of (scsiSwapLogPeek_some hi (by omega) hitem), List.map_cons]
    unfold showLoop
    dsimp only
    split
    · rfl
    · refine ih (by omega) (by omega) fun j x hx => ?_
      rw [show i + 1 + (j : ℤ) = i + ((j + 1 : ℕ) : ℤ) by omega]
      exact hpeek (j + 1) x hx

theorem scsiSwapLogShow_run (hring : s.log.ring = some r) (hitems : r.items = items.map some) (page : PageMem) :
    (scsiSwapLogShow page).run s = some (showLines 256 (items.map LogItem.line) page, s) := by
  have hlen : r.itemNum.toNat = items.length := by
    have := congrArg List.length hitems
    unfold Cspring.items at this
    rwa [List.length_map, List.length_range, List.length_map] at this
  have hpeek : ∀ (j : ℕ) x, items[j]? = some x → r.peek j = some x := by
    intro j x hx
    have hj := congrArg (·[j]?) hitems
    have hlt := (List.getElem?_eq_some_iff.1 hx).1
    unfold Cspring.items at hj
    rw [List.getElem?_map, List.getElem?_map, hx, List.getElem?_range (by omega)] at hj
    exact Option.some.inj hj
  unfold scsiSwapLogShow
  rw [run_get_bind, hring]
  dsimp only
  by_cases hneg : r.itemNum < 0
  · -- a number of items below zero is as good as none
    obtain rfl := List.length_eq_zero_iff.1 (show items.length = 0 by omega)
    rw [hlen]
    unfold scsiSwapLogShowLoop
    rw [List.length_nil]
    exact run_bind_of (run_bind_of (scsiSwapLogPeek_null (by omega)))
  · rw [hlen, run_bind_of (scsiSwapLogShowLoop_run le_rfl (by omega)
      fun j x hx => by rw [zero_add]; exact hpeek j x hx)]
    rfl

theorem linesFit_map {α : Type} {f : α → List Char} {xs : List α} (h : ∀ x, f x ≠ [] ∧ (f x).length < size) :
    LinesFit size (xs.map f) := by
  intro line hl
  obtain ⟨x, -, rfl⟩ := List.mem_map.1 hl
  exact h x

/-- **The pages of sysfs.** Whatever mappings, ranges and log items there are, no line is cut off, nothing is
written outside of the page, and the page gets the lines of the longest prefix that fits. -/
theorem shows_stay_in_page (s : World) (sim : List SimNode) (page : PageMem) :
    Shown 64 (s.core.infoList.map fun p => (s.heap p).table.line) page (scsiSwapCoreShow s page) ∧
      Shown 64 (sim.map SimNode.line) page (scsiSwapSimShow sim page) ∧
      ∀ (r : Cspring LogItem) (items : List LogItem), s.log.ring = some r → r.items = items.map some →
        ∃ shown, (scsiSwapLogShow page).run s = some (shown, s) ∧
          Shown 256 (items.map LogItem.line) page shown := by
  refine ⟨?_, ?_, fun r items hring hitems => ⟨_, scsiSwapLogShow_run hring hitems page, ?_⟩⟩
  · exact showLines_shown (linesFit_map fun p => ⟨lineOf_ne_nil _, (s.heap p).table.line_fits⟩) page
  · exact showLines_shown (linesFit_map fun node => ⟨lineOf_ne_nil _, node.line_fits⟩) page
  · exact showLines_shown (linesFit_map fun item => ⟨lineOf_ne_nil _, item.line_fits⟩) page

/-- A log that has gone round: of 515 items the first three are overwritten. -/
theorem shows_stay_in_page_wrapped :
    let item : ℕ → LogItem := fun k => ⟨0, 1, .ofNat 64 k, 3, 4, 5, 6, 7, 8, 9, 0⟩
    let r : Cspring LogItem := ⟨512, 32, 512, 3, fun k => item (if k < 3 then 512 + k else k)⟩
    let s : World := { World.blank with log := { World.blank.log with ring := some r } }
    let items := (List.range' 3 512).map item
    r.items = items.map some ∧ ∃ shown, (scsiSwapLogShow fun _ => 'x').run s = some (shown, s) ∧
      Shown 256 (items.map LogItem.line) (fun _ => 'x') shown := by
  intro item r s items
  have hlen : ((List.range 515).map item).length = 515 := by rw [List.length_map, List.length_range]
  have hholds : r.Holds 512 ((List.range 515).map item) := by
    refine ⟨⟨⟨rfl, rfl, by decide, by decide⟩, by rw [hlen]; rfl, by rw [hlen]; rfl⟩, fun j hj x hx => ?_⟩
    rw [hlen] at hj
    rw [List.getElem?_map, Option.map_eq_some_iff] at hx
    obtain ⟨k, hk, rfl⟩ := hx
    obtain ⟨hlt, hkj⟩ := List.getElem?_eq_some_iff.1 hk
    rw [List.length_range] at hlt
    rw [List.getElem_range] at hkj
    show item (if j % 512 < 3 then 512 + j % 512 else j % 512) = item k
    refine congrArg item ?_
    split <;> omega
  have hitems : r.items = items.map some := by
    rw [hholds.items, hlen, ← List.map_drop, List.range_eq_range', List.drop_range']
  exact ⟨hitems, (shows_stay_in_page s [] fun _ => 'x').2.2 r items rfl hitems⟩

end ScsiSwap
