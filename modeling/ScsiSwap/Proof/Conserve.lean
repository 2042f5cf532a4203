import ScsiSwap.Lib.Schedule
import ScsiSwap.Proof.Alive
import ScsiSwap.Proof.Flight

/-!
# No bio is lost

A bio changes hands up to three times: from the submitter to the disk, from the disk to the worker, and back.
Any order of submissions, completions and runs of the worker is possible.

* `Advanced.balance`: what one step does to the bios in flight;
* `bios_ended_once`: a bio is in flight or ended, once, and nothing else is;
* `step_live`, `step_takes`: every step finishes, and one that finds a bio takes it;
* `bios_all_end`: a disk and a worker that go on working have ended every bio after two steps a bio.
-/

namespace ScsiSwap

open StateOption

variable {E : Env} {b : Bdev} {s s' : World} {f f' : Flight} {a : FlightAction} {e : FlightEvent}

/-! ## Exactly once -/

/-- A submission is never idle. -/
theorem submit_event {bio : Bio} {data : ℕ → Sector}
    (h : ((FlightAction.submit bio data).step E b).run f = some (e, f')) : e ≠ .idle := by
  unfold FlightAction.step at h
  rw [run_get_bind, run_set_bind] at h
  obtain ⟨r, f₁, -, h2⟩ := run_bind_iff.1 h
  cases r with
  | diverted item =>
    dsimp only at h2
    rw [run_modify_bind] at h2
    rw [(run_pure_iff.1 h2).1]
    simp
  | ended error =>
    rw [(run_pure_iff.1 h2).1]
    simp
  | queued bio' =>
    dsimp only at h2
    rw [run_modify_bind] at h2
    rw [(run_pure_iff.1 h2).1]
    simp

theorem countP_eraseIdx {α : Type} {l : List α} {i : ℕ} {x : α} (p : α → Bool) (h : l[i]? = some x) :
    (l.eraseIdx i).countP p + (if p x then 1 else 0) = l.countP p := by
  obtain ⟨hi, rfl⟩ := List.getElem?_eq_some_iff.1 h
  rw [← (List.getElem_cons_eraseIdx_perm hi).countP_eq p, List.countP_cons]

/-- **One step** takes a bio in only if it submits one, and lets a bio go only by ending it. -/
theorem Advanced.balance (h : Advanced E b f a e f') (hidle : a.isSubmit = true → e ≠ .idle) (i : ℕ) :
    f'.held i + (if e.ends i then 1 else 0) = f.held i + (if a.isSubmit ∧ f.now = i then 1 else 0) := by
  cases h with
  | diverted hd =>
    simp only [Flight.held, FlightEvent.ends, FlightEvent.done, FlightAction.isSubmit, List.countP_append,
      List.countP_singleton, Option.any_none, true_and, decide_eq_true_eq]
    simp [Nat.add_assoc]
  | refused hd =>
    simp [Flight.held, FlightEvent.ends, FlightEvent.done, FlightAction.isSubmit]
  | queued hd hbad =>
    simp only [Flight.held, FlightEvent.ends, FlightEvent.done, FlightAction.isSubmit, List.countP_append,
      List.countP_singleton, Option.any_none, true_and, decide_eq_true_eq]
    simp only [Bool.false_eq_true, if_false]
    omega
  | @handed j io pos m w hi hd hr =>
    have herase := countP_eraseIdx (fun m : Msg => decide (m.born = i)) hi
    simp only [Flight.held, FlightEvent.ends, FlightEvent.done, FlightAction.isSubmit, List.countP_append,
      List.countP_singleton, Option.any_none, Bool.false_eq_true, false_and, if_false]
    omega
  | @served j io pos m error w hi hd he =>
    have herase := countP_eraseIdx (fun m : Msg => decide (m.born = i)) hi
    simp only [Flight.held, FlightEvent.ends, FlightEvent.done, FlightAction.isSubmit, Option.any_some,
      Bool.false_eq_true, false_and, if_false, decide_eq_true_eq] at herase ⊢
    omega
  | @worked j item m error buf w hi hrun =>
    have herase := countP_eraseIdx (fun c : SwapBioItem × Msg => decide (c.2.born = i)) hi
    simp only [Flight.held, FlightEvent.ends, FlightEvent.done, FlightAction.isSubmit, Option.any_some,
      Bool.false_eq_true, false_and, if_false, decide_eq_true_eq] at herase ⊢
    omega
  | idle a =>
    have hno : a.isSubmit = false := by
      by_contra hne
      exact hidle (by simpa using hne) rfl
    simp [Flight.held, FlightEvent.ends, FlightEvent.done, hno]

theorem step_balance (h : (a.step E b).run f = some (e, f')) (i : ℕ) :
    f'.held i + (if e.ends i then 1 else 0) = f.held i + (if a.isSubmit ∧ f.now = i then 1 else 0) := by
  refine (step_advanced h).balance (fun hsub => ?_) i
  cases a with
  | submit bio data => exact submit_event h
  | complete j io pos => exact absurd hsub (by simp [FlightAction.isSubmit])
  | work j => exact absurd hsub (by simp [FlightAction.isSubmit])

/-- The same for a run: action `k` of it is step `f.now + k`. -/
theorem runAll_balance (i : ℕ) : ∀ {acts : List FlightAction} {evs : List FlightEvent} {f f' : Flight},
    (runAll (FlightAction.step E b) acts).run f = some (evs, f') →
    f'.held i + evs.countP (FlightEvent.ends i) =
      f.held i + (if f.now ≤ i ∧ (acts[i - f.now]?).any FlightAction.isSubmit = true then 1 else 0) := by
  intro acts
  induction acts with
  | nil =>
    intro evs f f' h
    obtain ⟨rfl, rfl⟩ := run_pure_iff.1 h
    simp
  | cons a acts ih =>
    intro evs f f' h
    obtain ⟨e, f₁, h1, h2⟩ := run_bind_iff.1 h
    obtain ⟨es, f₂, h3, h4⟩ := run_bind_iff.1 h2
    obtain ⟨rfl, rfl⟩ := run_pure_iff.1 h4
    have hstep := step_balance h1 i
    have hrest := ih h3
    rw [(step_advanced h1).now] at hrest
    rw [List.countP_cons]
    -- before, at and after step `i`
    rcases Nat.lt_trichotomy f.now i with hlt | heq | hgt
    · obtain ⟨k, rfl⟩ : ∃ k, i = f.now + 1 + k := ⟨i - f.now - 1, by omega⟩
      rw [show f.now + 1 + k - (f.now + 1) = k by omega] at hrest
      rw [show f.now + 1 + k - f.now = k + 1 by omega, List.getElem?_cons_succ]
      simp only [show ¬ (f.now = f.now + 1 + k) by omega, and_false, if_false, Nat.add_zero] at hstep
      simp only [show f.now + 1 ≤ f.now + 1 + k by omega, show f.now ≤ f.now + 1 + k by omega, true_and]
        at hrest ⊢
      omega
    · subst heq
      simp only [show ¬ (f.now + 1 ≤ f.now) by omega, false_and, if_false] at hrest
      simp only [Nat.sub_self, List.getElem?_cons_zero, Option.any_some, le_refl, true_and, and_true] at hstep ⊢
      omega
    · simp only [show ¬ (f.now + 1 ≤ i) by omega, false_and, if_false] at hrest
      simp only [show ¬ (f.now = i) by omega, and_false, if_false] at hstep
      simp only [show ¬ (f.now ≤ i) by omega, false_and, if_false]
      omega

/-- The bio of a message, and its data, are those of the submission in its step. -/
def Msg.From (b : Bdev) (acts : List FlightAction) (m : Msg) : Prop :=
  ∃ bio, acts[m.born]? = some (.submit bio m.data) ∧ (m.bio = bio ∨ m.bio = blkPartitionRemap b bio)

/-- The bios in flight are those of the actions so far. -/
structure Flight.From (b : Bdev) (acts : List FlightAction) (f : Flight) : Prop where
  direct : ∀ m ∈ f.direct, m.From b acts
  worker : ∀ c ∈ f.worker, c.2.From b acts

theorem Advanced.from {acts : List FlightAction} (h : Advanced E b f a e f') (ha : acts[f.now]? = some a)
    (hf : f.From b acts) : f'.From b acts ∧ ∀ m, e.done = some m → m.From b acts := by
  cases h with
  | diverted hd =>
    exact ⟨⟨hf.direct, mem_append_one hf.worker ⟨_, ha, Or.inl rfl⟩⟩, by simp [FlightEvent.done]⟩
  | refused hd =>
    refine ⟨⟨hf.direct, hf.worker⟩, fun m hm => ?_⟩
    obtain rfl := Option.some.inj hm
    exact ⟨_, ha, Or.inl rfl⟩
  | queued hd hbad =>
    exact ⟨⟨mem_append_one hf.direct ⟨_, ha, Or.inr rfl⟩, hf.worker⟩, by simp [FlightEvent.done]⟩
  | handed hi hd hr =>
    have hm := hf.direct _ (List.mem_of_getElem? hi)
    exact ⟨⟨fun m hm => hf.direct m (List.mem_of_mem_eraseIdx hm),
      mem_append_one hf.worker hm⟩, by simp [FlightEvent.done]⟩
  | served hi hd he =>
    refine ⟨⟨fun m hm => hf.direct m (List.mem_of_mem_eraseIdx hm), hf.worker⟩, fun m hm => ?_⟩
    obtain rfl := Option.some.inj hm
    exact hf.direct _ (List.mem_of_getElem? hi)
  | worked hi hrun =>
    refine ⟨⟨hf.direct, fun c hc => hf.worker c (List.mem_of_mem_eraseIdx hc)⟩, fun m hm => ?_⟩
    obtain rfl := Option.some.inj hm
    exact hf.worker _ (List.mem_of_getElem? hi)
  | idle a => exact ⟨⟨hf.direct, hf.worker⟩, by simp [FlightEvent.done]⟩

theorem runAll_from {acts : List FlightAction} {evs : List FlightEvent}
    (h : (runAll (FlightAction.step E b) acts).run ⟨s, [], [], 0⟩ = some (evs, f')) :
    ∀ e ∈ evs, ∀ m, e.done = some m → m.From b acts := by
  obtain ⟨st, ht, h0, -⟩ := runAll_trace h
  have hinv : ∀ i ≤ acts.length, (st i).now = i ∧ (st i).From b acts := by
    intro i
    induction i with
    | zero =>
      intro _
      rw [h0]
      exact ⟨rfl, by simp, by simp⟩
    | succ i ih =>
      intro hi
      obtain ⟨hnow, hfrom⟩ := ih (by omega)
      have hadv := step_advanced (ht.step i hi (by rw [ht.length]; exact hi))
      have hact : acts[(st i).now]? = some acts[i] := by rw [hnow]; exact List.getElem?_eq_getElem hi
      exact ⟨by rw [hadv.now, hnow], (hadv.from hact hfrom).1⟩
  intro e he m hm
  obtain ⟨i, hi, rfl⟩ := List.getElem_of_mem he
  have hi' : i < acts.length := ht.length ▸ hi
  obtain ⟨hnow, hfrom⟩ := hinv i hi'.le
  have hact : acts[(st i).now]? = some acts[i] := by rw [hnow]; exact List.getElem?_eq_getElem hi'
  exact ((step_advanced (ht.step i hi' hi)).from hact hfrom).2 m hm

/-- **No bio is lost, doubled or mixed up.** Whatever the order of submissions, completions and runs of the
worker is, and whatever fails: at any time the bio of every submission so far has been ended or is in flight,
once. What is ended is the bio that was submitted, with its data. -/
theorem bios_ended_once {acts : List FlightAction} {evs : List FlightEvent}
    (h : (runAll (FlightAction.step E b) acts).run ⟨s, [], [], 0⟩ = some (evs, f')) :
    (∀ i, evs.countP (FlightEvent.ends i) + f'.held i =
      if (acts[i]?).any FlightAction.isSubmit = true then 1 else 0) ∧
      ∀ e ∈ evs, ∀ m, e.done = some m → m.From b acts := by
  refine ⟨fun i => ?_, runAll_from h⟩
  have hbalance := runAll_balance i h
  have hnone : Flight.held ⟨s, [], [], 0⟩ i = 0 := rfl
  rw [hnone] at hbalance
  simp only [Nat.zero_le, true_and, Nat.sub_zero, Nat.zero_add] at hbalance
  omega

/-- Two bios for one block: the first fails on the disk and is handed over, the second is diverted to its
mapping. -/
theorem bios_ended_once_two :
    let E := Env.refusing fun c _ => c.lba < 1000
    let bio : Bio := ⟨true, 6, 512, true⟩
    let acts := [FlightAction.submit bio fun _ => zeroSector,
      .complete 0 (.fail (fun _ => none) false) 6, .work 0,
      .submit bio fun _ => zeroSector]
    ∃ s evs f', (scsiSwapInit E 1000).run World.blank = some (true, s) ∧
      (runAll (FlightAction.step E (.disk 1000)) acts).run ⟨s, [], [], 0⟩ = some (evs, f') ∧
        f'.worker.length = 1 ∧
      (∀ i, evs.countP (FlightEvent.ends i) + f'.held i =
        if (acts[i]?).any FlightAction.isSubmit = true then 1 else 0) ∧
      ∀ e ∈ evs, ∀ m, e.done = some m → m.From (.disk 1000) acts := by
  intro E bio acts
  have hrun : ((do
      let ok ← scsiSwapInit E 1000
      let s ← get
      return (ok, ((runAll (FlightAction.step E (.disk 1000)) acts).run ⟨s, [], [], 0⟩).map fun r =>
        r.2.worker.length) :
        SwapM (Bool × Option ℕ)).run World.blank).map Prod.fst = some (true, some 1) := by decide +kernel
  obtain ⟨s', h⟩ := run_of_result hrun
  obtain ⟨ok, s, h1, h⟩ := run_bind_iff.1 h
  rw [run_get_bind] at h
  obtain ⟨e, -⟩ := run_pure_iff.1 h
  obtain ⟨rfl, hacts⟩ := Prod.mk.inj e.symm
  obtain ⟨⟨evs, f'⟩, h2, hlen⟩ := Option.map_eq_some_iff.1 hacts
  exact ⟨s, evs, f', h1, h2, hlen, bios_ended_once h2⟩

/-! ## Until nothing is left -/

theorem swapBio_live (bio : Bio) (sector badSec : ℕ) (size error : ℤ) :
    Ensures World.Live (swapBio E b bio sector size badSec error) fun _ => World.Live := by
  refine .ite (fun _ => .pure fun _ hs => hs) fun _ => .ite (fun _ => .pure fun _ hs => hs) fun _ => ?_
  refine .ite (fun _ => .pure fun _ hs => hs) fun _ => .get_bind fun s hs => ?_
  refine .ite (fun _ => Ensures.pure_at hs) fun _ => (kmalloc_safely.at_state hs).bind fun _ => ?_
  exact .ite (fun _ => .pure fun _ hs => hs) fun _ => .pure fun _ hs => hs

theorem genericMakeRequest_live (bio : Bio) :
    Ensures World.Live (genericMakeRequest E b bio) fun _ => World.Live := by
  refine .get_bind fun s hs => .ite (fun _ => ?_) fun _ => .ite (fun _ => Ensures.pure_at hs) fun _ => ?_
  · refine ((swapBio_live ..).at_state hs).bind fun o => ?_
    cases o with
    | none => exact .pure fun _ hs => hs
    | some item => exact .pure fun _ hs => hs
  · exact .ite (fun _ => Ensures.pure_at hs) fun _ => Ensures.pure_at hs

theorem reqBioEndio_live (bio : Bio) (c : EndCall) :
    Ensures World.Live (reqBioEndio E b bio c) fun _ => World.Live := by
  unfold reqBioEndio
  refine .ite (fun _ => (swapBio_live ..).bind fun o => ?_) fun _ => .pure fun _ hs => hs
  cases o with
  | none => exact .pure fun _ hs => hs
  | some item => exact .pure fun _ hs => hs

theorem swapBioWorkHandler_live (item : SwapBioItem) (bio : Bio) (buf : ℕ → Sector) :
    Ensures World.Live (swapBioWorkHandler E item bio buf) fun _ => World.Live := by
  refine kmalloc_safely.bind fun _ => .ite (fun _ => ?_) fun _ => .pure fun _ hs => hs
  exact (serve_live _).bind fun _ => .ite (fun _ => .pure fun _ hs => hs) fun _ => .pure fun _ hs => hs

theorem direct_live {m : Msg} (hs : s.Live) (io : IoResult) : (s.direct m io).Live := by
  unfold World.direct
  split
  · exact ⟨hs.log, hs.list, hs.data⟩
  · exact hs

/-- No pointer of the disk is null. -/
def Flight.Live (f : Flight) : Prop := f.world.Live

theorem onWorld_live {α : Type} {x : SwapM α} (hx : Ensures World.Live x fun _ => World.Live) :
    Ensures Flight.Live (onWorld x) fun _ => Flight.Live := by
  refine ⟨fun f hf => ?_⟩
  obtain ⟨r, w, hrun, hw⟩ := hx.run f.world hf
  exact ⟨r, { f with world := w }, onWorld_iff.2 ⟨w, hrun, rfl⟩, hw⟩

/-- **Every step comes to its end.** -/
theorem step_live (a : FlightAction) : Ensures Flight.Live (a.step E b) fun _ => Flight.Live := by
  have hend : ∀ ev : FlightEvent, Ensures Flight.Live (pure ev : StateT Flight Option FlightEvent)
      fun _ => Flight.Live :=
    fun ev => .pure fun _ hs => hs
  refine .get_bind fun f hf => .set_bind ?_
  have hf' : Flight.Live { f with now := f.now + 1 } := hf
  cases a with
  | submit bio data =>
    refine ((onWorld_live (genericMakeRequest_live bio)).at_state hf').bind fun r => ?_
    cases r with
    | diverted item => exact Ensures.bind (.modify fun _ hs => hs) fun _ => hend _
    | ended error => exact hend _
    | queued bio' => exact Ensures.bind (.modify fun _ hs => hs) fun _ => hend _
  | complete i io pos =>
    dsimp only
    split
    · exact (hend _).at_state hf'
    rename_i m hi
    refine Ensures.bind (Q := fun _ => Flight.Live) (.modify ?_) fun _ => ?_
    · rintro _ rfl
      exact direct_live hf io
    refine (onWorld_live (reqBioEndio_live ..)).bind fun r => ?_
    obtain ⟨bio', out⟩ := r
    cases out with
    | pending => exact hend _
    | handed item => exact Ensures.bind (.modify fun _ hs => hs) fun _ => hend _
    | ended error => exact hend _
  | work i =>
    dsimp only
    split
    · exact (hend _).at_state hf'
    refine Ensures.bind (Q := fun _ => Flight.Live) (.modify ?_) fun _ => ?_
    · rintro _ rfl
      exact hf
    exact (onWorld_live (swapBioWorkHandler_live ..)).bind fun _ => hend _

/-- The action takes a bio that is in flight. -/
def FlightAction.Takes (f : Flight) : FlightAction → Prop
  | .submit _ _ => False
  | .complete i _ _ => i < f.direct.length
  | .work i => i < f.worker.length

/-- A disk and a worker that do not rest while there is a bio, in whatever order they take them, and whatever
the disk says. -/
structure Busy (pick : Flight → Option FlightAction) : Prop where
  takes : ∀ {f a}, pick f = some a → a.Takes f
  rests : ∀ {f}, pick f = none → f.direct = [] ∧ f.worker = []

/-- Twice the bios at the disk, which may still come to the worker, and those of the worker. -/
def Flight.work (f : Flight) : ℕ := 2 * f.direct.length + f.worker.length

/-- **A bio that is taken** does not come back to where it was. -/
theorem step_takes (ha : a.Takes f) (h : (a.step E b).run f = some (e, f')) : f'.work < f.work := by
  have hadv := step_advanced h
  cases hadv with
  | diverted hd => exact ha.elim
  | refused hd => exact ha.elim
  | queued hd hbad => exact ha.elim
  | @handed i io pos m w hi hd hr =>
    have hlen := List.length_eraseIdx_of_lt (show i < f.direct.length from ha)
    have hpos : i < f.direct.length := ha
    simp only [Flight.work, hlen, List.length_append, List.length_singleton]
    omega
  | @served i io pos m error w hi hd he =>
    have hlen := List.length_eraseIdx_of_lt (show i < f.direct.length from ha)
    have hpos : i < f.direct.length := ha
    simp only [Flight.work, hlen]
    omega
  | @worked i item m error buf w hi hrun =>
    have hlen := List.length_eraseIdx_of_lt (show i < f.worker.length from ha)
    have hpos : i < f.worker.length := ha
    simp only [Flight.work, hlen]
    omega
  | idle a =>
    -- there is a bio at place `i`, so the step is not idle
    exfalso
    unfold FlightAction.step at h
    rw [run_get_bind, run_set_bind] at h
    cases a with
    | submit bio data => exact ha
    | complete i io pos =>
      obtain ⟨m, hi⟩ : ∃ m, f.direct[i]? = some m := ⟨_, List.getElem?_eq_getElem ha⟩
      dsimp only at h
      rw [hi] at h
      dsimp only at h
      rw [run_modify_bind] at h
      obtain ⟨⟨bio', out⟩, f₁, h1, h2⟩ := run_bind_iff.1 h
      obtain ⟨w, hw, rfl⟩ := onWorld_iff.1 h1
      have hout := (reqBioEndio_ended (A := fun _ => False) rfl hw).2
      dsimp only at h2 hout
      cases hout with
      | handed hr =>
        dsimp only at h2
        rw [run_modify_bind] at h2
        exact absurd (run_pure_iff.1 h2).1 (by simp)
      | ended he => exact absurd (run_pure_iff.1 h2).1 (by simp)
    | work i =>
      obtain ⟨c, hi⟩ : ∃ c, f.worker[i]? = some c := ⟨_, List.getElem?_eq_getElem ha⟩
      obtain ⟨item, m⟩ := c
      dsimp only at h
      rw [hi] at h
      dsimp only at h
      rw [run_modify_bind] at h
      obtain ⟨⟨error, buf⟩, f₁, -, h2⟩ := run_bind_iff.1 h
      exact absurd (run_pure_iff.1 h2).1 (by simp)

/-- **Every bio is ended.** After a start that returned 0, with a log whose ring stays in its buffer: every run of
submissions, completions and runs of the worker comes to its end. If no bio is submitted after it, and the disk
and the worker do not rest while there is one, then after two steps for each bio at the disk and one for each
of the worker nothing is in flight, and each bio of the run has been ended once. -/
theorem bios_all_end {E₀ : Env} {R : ℕ} {w : World} (hinit : (scsiSwapInit E₀ R).run w = some (true, s))
    (hlog : s.LogSafe)
    (E : Env) (b : Bdev) (acts : List FlightAction) {pick : Flight → Option FlightAction} (hpick : Busy pick) :
    ∃ evs f evs' f', (runAll (FlightAction.step E b) acts).run ⟨s, [], [], 0⟩ = some (evs, f) ∧
      (runPick (FlightAction.step E b) pick (2 * f.direct.length + f.worker.length)).run f = some (evs', f') ∧
      f'.direct = [] ∧ f'.worker = [] ∧
      ∀ i, (evs ++ evs').countP (FlightEvent.ends i) =
        if (acts[i]?).any FlightAction.isSubmit = true then 1 else 0 := by
  have hlive : Flight.Live ⟨s, [], [], 0⟩ := scsiSwapInit_live hinit hlog
  obtain ⟨evs, f, hrun, hf⟩ := (Ensures.runAll (step_live (E := E) (b := b)) acts).run _ hlive
  have hstep : ∀ {t a}, Flight.Live t → pick t = some a →
      ∃ e t', (FlightAction.step E b a).run t = some (e, t') ∧ t'.Live ∧ t'.work < t.work := by
    intro t a ht ha
    obtain ⟨e, t', h1, ht'⟩ := (step_live (E := E) (b := b) a).run t ht
    exact ⟨e, t', h1, ht', step_takes (hpick.takes ha) h1⟩
  obtain ⟨evs', f', hdrain, -, hnone⟩ := runPick_drain hstep f.work hf le_rfl
  obtain ⟨hdirect, hworker⟩ := hpick.rests hnone
  refine ⟨evs, f, evs', f', hrun, hdrain, hdirect, hworker, fun i => ?_⟩
  obtain ⟨acts', hacts', hpicked⟩ := runPick_runAll hdrain
  have hbalance := runAll_balance i (runAll_append hrun hacts')
  have hnone : f'.held i = 0 := by
    unfold Flight.held
    rw [hdirect, hworker]
    rfl
  have hzero : Flight.held ⟨s, [], [], 0⟩ i = 0 := rfl
  rw [hnone, hzero] at hbalance
  simp only [Nat.zero_le, true_and, Nat.sub_zero, Nat.zero_add] at hbalance
  rw [hbalance]
  -- what was picked are no submissions
  by_cases hi : i < acts.length
  · rw [List.getElem?_append_left hi]
  · rw [List.getElem?_append_right (by omega), List.getElem?_eq_none (l := acts) (by omega)]
    have hno : (acts'[i - acts.length]?).any FlightAction.isSubmit = false := by
      cases ha : acts'[i - acts.length]? with
      | none => rfl
      | some a =>
        obtain ⟨t, ht⟩ := hpicked a (List.mem_of_getElem? ha)
        have htakes := hpick.takes ht
        cases a with
        | submit bio data => exact htakes.elim
        | complete j io pos => rfl
        | work j => rfl
    rw [hno]
    rfl

/-- The first bio of the disk fails, and if there is none, the worker takes its first one. -/
def Flight.worst (f : Flight) : Option FlightAction :=
  if f.direct ≠ [] then some (.complete 0 (.fail (fun _ => none) true) 0)
  else if f.worker ≠ [] then some (.work 0)
  else none

theorem worst_busy : Busy Flight.worst := by
  have hpos : ∀ {α : Type} {l : List α}, l ≠ [] → 0 < l.length := fun h => List.length_pos_iff.2 h
  refine ⟨fun {f a} h => ?_, fun {f} h => ?_⟩
  · unfold Flight.worst at h
    split at h
    · obtain rfl := Option.some.inj h
      exact hpos ‹_›
    split at h
    · obtain rfl := Option.some.inj h
      exact hpos ‹_›
    · exact absurd h (by simp)
  · unfold Flight.worst at h
    split at h
    · exact absurd h (by simp)
    split at h
    · exact absurd h (by simp)
    · exact ⟨not_not.1 ‹_›, not_not.1 ‹_›⟩

/-- All commands fail after the start. -/
theorem bios_all_end_worst :
    ∃ s, (scsiSwapInit (Env.refusing fun _ _ => false) 1000).run World.blank = some (true, s) ∧
      ∀ acts, ∃ evs f evs' f',
        (runAll (FlightAction.step (Env.scarred fun _ => true) (.disk 1000)) acts).run ⟨s, [], [], 0⟩ =
          some (evs, f) ∧
        (runPick (FlightAction.step (Env.scarred fun _ => true) (.disk 1000)) Flight.worst
          (2 * f.direct.length + f.worker.length)).run f = some (evs', f') ∧ f'.direct = [] ∧ f'.worker = [] := by
  obtain ⟨s, h1, hlog⟩ := logSafe_of_result (E := Env.refusing fun _ _ => false) (R := 1000) (w := World.blank)
    (by decide +kernel)
  refine ⟨s, h1, fun acts => ?_⟩
  obtain ⟨evs, f, evs', f', hrun, hdrain, hd, hw, -⟩ :=
    bios_all_end h1 hlog (Env.scarred fun _ => true) (.disk 1000) acts worst_busy
  exact ⟨evs, f, evs', f', hrun, hdrain, hd, hw⟩

end ScsiSwap
