import ScsiSwap.Proof.Start

/-!
# A session reads back what it wrote

The states of a session all satisfy the invariant (`session_trace`), and from one request to
the next the logical contents change as `Served` says. So what a write stored stays where
it is until a request to the same block writes over it or does not return 0
(`session_reads_back`).
-/

namespace ScsiSwap

open StateOption

variable {E : Env} {R : ℕ}

/-- The states of a session from `s` on requests below the reserve. -/
theorem session_trace {s s' : World} {os : List Request} {as : List Reply}
    (h : (session E os).run s = some (as, s')) (hv : s.view.Inv)
    (hos : ∀ o ∈ os, Fits o.start o.count s.view.geom.reserve) :
    ∃ st, Trace (Request.serve E) os as st ∧ st 0 = s ∧ st os.length = s' ∧
      (∀ i ≤ os.length, (st i).view.Inv ∧ (st i).view.geom = s.view.geom) ∧
      ∀ i (hi : i < os.length) (hr : i < as.length), Served (st i) (st (i + 1)) os[i] as[i] := by
  obtain ⟨st, ht, h0, hn⟩ := runAll_trace h
  have hinv : ∀ i ≤ os.length, (st i).view.Inv ∧ (st i).view.geom = s.view.geom := by
    refine trace_inv (P := fun t : World => t.view.Inv ∧ t.view.geom = s.view.geom) ht
      (by subst h0; exact ⟨hv, rfl⟩) ?_
    intro i hi hr hP
    obtain ⟨hv', hg'⟩ := hP
    have hserved := serve_served (ht.step i hi hr) hv' (hg' ▸ hos _ (List.getElem_mem hi))
    exact ⟨hserved.inv, hserved.geom.trans hg'⟩
  refine ⟨st, ht, h0, hn, hinv, ?_⟩
  intro i hi hr
  obtain ⟨hv', hg'⟩ := hinv i hi.le
  exact serve_served (ht.step i hi hr) hv' (hg' ▸ hos _ (List.getElem_mem hi))

/-- **What was written is read back.** After a start on an all-zero reserve, let request `i` be a
write that covers sector `x` and returns 0 or `-DATA_MAY_DIRTY`. If every later request that
touches the block of `x`, up to the read `j`, returns 0, and none of them writes `x`, then a
read of `x` that returns 0 delivers what `i` wrote. The device may fail at any time in any way. -/
theorem session_reads_back {E₀ : Env} {s₀ s₁ s₂ : World} (hR : R + maxReservedSector < 2 ^ 31)
    (hE : E₀.NoForgedEntry) (hz : ZeroReserve R s₀.disk)
    (hinit : (scsiSwapInit E₀ R).run s₀ = some (true, s₁)) {os : List Request} {as : List Reply}
    (hos : ∀ o ∈ os, o.start + o.count ≤ R) (hrun : (session E os).run s₁ = some (as, s₂))
    {i j x : ℕ} {w r : Request} {a b : Reply} (hij : i < j)
    (hw : os[i]? = some w) (ha : as[i]? = some a) (hwrite : w.isWrite = true) (hcov : w.Covers x)
    (hret : a.ret = .ok ∨ a.ret = .dirty)
    (hlater : ∀ k o c, i < k → k < j → os[k]? = some o → as[k]? = some c → o.Touches (x / 128) →
      c.ret = .ok ∧ ¬ (o.isWrite = true ∧ o.Covers x))
    (hr : os[j]? = some r) (hb : as[j]? = some b) (hread : r.isWrite = false) (hrcov : r.Covers x)
    (hok : b.ret = .ok) :
    b.buf (x - r.start) = w.buf (x - w.start) := by
  obtain ⟨hv, hres, -⟩ := scsiSwapInit_zero hE (by omega) hz hinit
  obtain ⟨st, ht, -, -, hinv, hserved⟩ := session_trace hrun hv (by
    intro o ho
    rw [hres]
    exact fits_of_small (hos o ho) hR)
  obtain ⟨hi, rfl⟩ := List.getElem?_eq_some_iff.1 hw
  obtain ⟨hia, rfl⟩ := List.getElem?_eq_some_iff.1 ha
  obtain ⟨hj, rfl⟩ := List.getElem?_eq_some_iff.1 hr
  obtain ⟨hja, rfl⟩ := List.getElem?_eq_some_iff.1 hb
  have hgeom : ∀ k ≤ os.length, (st k).view.geom.reserve = R := fun k hk => by rw [(hinv k hk).2, hres]
  have hx : x < R := by
    have h1 := hos _ (List.getElem_mem hi)
    have h2 := hcov.2
    omega
  -- the write stores the data, and the requests in between leave it alone
  have hstored : (st (i + 1)).contents x = os[i].buf (x - os[i].start) :=
    (hserved i hi hia).wrote hwrite (by rcases hret with h | h <;> rw [h] <;> simp) x hcov
  have hkept : ∀ k, i < k → k < j → (st (k + 1)).contents x = (st k).contents x := by
    intro k hik hkj
    have hk : k < os.length := by omega
    have hka : k < as.length := by rw [ht.length]; exact hk
    have hs := hserved k hk hka
    have hxk : x < (st k).view.geom.reserve := by rw [hgeom k hk.le]; exact hx
    by_cases htouch : os[k].Touches (x / 128)
    · obtain ⟨hkret, hkcov⟩ := hlater k os[k] as[k] hik hkj (List.getElem?_eq_getElem hk)
        (List.getElem?_eq_getElem hka) htouch
      exact hs.ok hkret x hxk hkcov
    · exact hs.frame x hxk htouch
  rw [(hserved j hj hja).read hread hok x hrcov]
  exact trace_last (f := fun t : World => t.contents x) hstored j hij hkept

/-- A disk with 1000 sectors for its user that can write none of them: two writes, to different
blocks, end in new mappings, and the first block is read back. -/
theorem session_reads_back_worn :
    let E := Env.refusing fun c _ => c.lba < 1000
    let w : Request := ⟨true, 5, 3, 2 ^ 64 - 1, fun _ _ => 7⟩
    let o : Request := ⟨true, 300, 1, 2 ^ 64 - 1, fun _ _ => 9⟩
    let r : Request := ⟨false, 0, 128, 2 ^ 64 - 1, fun _ => zeroSector⟩
    ∃ s₁ s₂ a c b, (scsiSwapInit E 1000).run World.blank = some (true, s₁) ∧
      (session E [w, o, r]).run s₁ = some ([a, c, b], s₂) ∧ a.ret = .dirty ∧ b.ret = .ok ∧
      b.buf 6 = w.buf 1 := by
  intro E w o r
  have hrun : ((do
      let ok ← scsiSwapInit E 1000
      let as ← session E [w, o, r]
      return (ok, as.map Reply.ret) : SwapM (Bool × List Ret)).run World.blank).map Prod.fst =
      some (true, [.dirty, .dirty, .ok]) := by decide +kernel
  obtain ⟨s', h⟩ := run_of_result hrun
  obtain ⟨ok, s₁, h1, h2⟩ := run_bind_iff.1 h
  obtain ⟨as, s₂, h3, h4⟩ := run_bind_iff.1 h2
  obtain ⟨e, rfl⟩ := run_pure_iff.1 h4
  obtain ⟨rfl, has⟩ := Prod.mk.inj e
  obtain ⟨a, as, rfl, ha, has⟩ := List.map_eq_cons_iff.1 has.symm
  obtain ⟨c, as, rfl, -, has⟩ := List.map_eq_cons_iff.1 has
  obtain ⟨b, as, rfl, hb, has⟩ := List.map_eq_cons_iff.1 has
  obtain rfl := List.map_eq_nil_iff.1 has
  refine ⟨s₁, s', a, c, b, h1, h3, ha, hb, ?_⟩
  refine session_reads_back (R := 1000) (x := 6) (i := 0) (j := 2) (by decide)
    (refusing_noForgedEntry _) (fun _ _ => rfl) h1 (by decide) h3 (by decide) rfl rfl rfl (by decide)
    (Or.inr ha) ?_ rfl rfl rfl (by decide) hb
  -- the request in between is in another block
  intro k q d h1 h2 hq _ ht
  obtain rfl : k = 1 := by omega
  obtain rfl : o = q := by simpa using hq
  exact absurd ht (by decide)

end ScsiSwap
