import OpenPoly.Lib.Indexed
import OpenPoly.Lib.Run
import OpenPoly.Spec.Polling

/-! The poller: over every run at most one run of the task is in flight, and from a forced
kick to the stop there is always a timer armed or a run to end. -/

namespace OpenPoly

open Transition

variable {p q : Poller} {r : TaskRun} {i j k : ℕ} {es fs : List PollEvent} {e : PollEvent}

def TaskRun.Over (r : TaskRun) : Prop := r.settled = true ∨ r.aborted = true

/-- A run's callbacks, by whether `current` is its controller. -/
structure TaskRun.Good (current : Bool) (r : TaskRun) : Prop where
  finished : r.finished = !current
  ended : r.finished = true → r.Over
  deadline : r.finished = false → r.aborted = false → r.deadline = true

structure Poller.Good (p : Poller) : Prop where
  /-- Only the timeout the handle names is armed. -/
  timer : p.pending = [] ∨ ∃ timer, p.pending = [timer] ∧ p.timer = some timer
  idle : p.current.isSome = true ∨ p.stopped = true → p.pending = []
  runs : ∀ (i : ℕ) (r : TaskRun), p.runs[i]? = some r → r.Good (decide (p.current = some i))
  current : ∀ i, p.current = some i → i < p.runs.length
  halted : p.stopped = true → ∀ r ∈ p.runs, r.Over

theorem good_start : ({} : Poller).Good :=
  ⟨.inl rfl, fun _ => rfl, by simp, by simp, by simp⟩

theorem Poller.Good.clearTimer (h : p.Good) : p.clearTimer.pending = [] := by
  unfold Poller.clearTimer
  rcases h.timer with hp | ⟨timer, hp, ht⟩
  · simp [hp]
  · simp [hp, ht]

theorem arm_good (h : p.Good) (hc : p.current = none) : p.arm.Good := by
  unfold Poller.arm
  by_cases hs : p.stopped = true
  · rw [if_pos hs]
    exact ⟨.inl h.clearTimer, fun _ => h.clearTimer, h.runs, h.current, h.halted⟩
  · rw [if_neg hs]
    refine ⟨.inr ⟨p.nextTimer, ?_, rfl⟩, ?_, h.runs, h.current, h.halted⟩
    · simp only [h.clearTimer]
    · rintro (hi | hi)
      · simp [Poller.clearTimer, hc] at hi
      · exact absurd hi hs

theorem begin_good (h : p.Good) (hc : p.current = none) (hs : p.stopped = false) :
    ({ p.clearTimer with current := some p.runs.length, runs := p.runs ++ [{}] } : Poller).Good where
  timer := .inl h.clearTimer
  idle := fun _ => h.clearTimer
  runs := by
    intro i r hr
    rcases Indexed.of_snoc hr with hr | ⟨rfl, rfl⟩
    · have hgood := h.runs i r hr
      have hi : p.runs.length ≠ i := Nat.ne_of_gt (List.getElem?_eq_some_iff.mp hr).1
      rw [hc] at hgood
      simpa [hi] using hgood
    · exact ⟨by simp, by simp, by simp⟩
  current := by
    intro i hi
    cases hi
    simp
  halted := fun hs' => absurd (hs'.symm.trans hs) (by decide)

theorem run_good (h : p.Good) (force shouldRun : Bool) : (p.run force shouldRun).Good := by
  unfold Poller.run
  split_ifs with hbusy hskip
  · exact h
  · simp only [Bool.or_eq_true, not_or, Bool.not_eq_true, Option.isSome_eq_false_iff, Option.isNone_iff_eq_none]
      at hbusy
    exact arm_good h hbusy.2
  · simp only [Bool.or_eq_true, not_or, Bool.not_eq_true, Option.isSome_eq_false_iff, Option.isNone_iff_eq_none]
      at hbusy
    exact begin_good h hbusy.2 hbusy.1

theorem note_good {f : TaskRun → TaskRun} (h : p.Good) (hf : ∀ c r, r.Good c → (f r).Good c)
    (hover : ∀ r, r.Over → (f r).Over) : (p.note k f).Good where
  timer := h.timer
  idle := h.idle
  runs := by
    intro i r hr
    obtain ⟨old, hold, ⟨-, rfl⟩ | ⟨-, rfl⟩⟩ := Indexed.of_modify hr
    · exact hf _ _ (h.runs i old hold)
    · exact h.runs i _ hold
  current := by
    intro i hi
    rw [Poller.note, List.length_modify]
    exact h.current i hi
  halted := fun hs => Indexed.forall_modify (h.halted hs) hover

theorem finish_good (h : p.Good) (hr : p.runs[k]? = some r) (hfin : r.finished = false)
    (hover : r.Over) : (p.finish k).Good := by
  have hc : p.current = some k := by
    have hgood := (h.runs k r hr).finished
    rw [hfin] at hgood
    simpa using hgood
  have heq : p.finish k = { p.note k ({ · with deadline := false, finished := true }) with current := none }.arm := by
    unfold Poller.finish
    exact congrArg (fun c => Poller.arm { p.note k _ with current := c }) (if_pos hc)
  rw [heq]
  have hnone : ∀ (i : ℕ) (r' : TaskRun),
      (p.runs.modify k ({ · with deadline := false, finished := true }))[i]? = some r' → r'.Good false := by
    intro i r' hr'
    obtain ⟨old, hold, ⟨rfl, rfl⟩ | ⟨hki, rfl⟩⟩ := Indexed.of_modify hr'
    · obtain rfl : r = old := Option.some.inj (hr.symm.trans hold)
      exact ⟨rfl, fun _ => hover, by simp⟩
    · have hgood := h.runs i _ hold
      rw [hc, decide_eq_false (fun hk => hki (Option.some.inj hk))] at hgood
      exact hgood
  refine arm_good ⟨h.timer, fun _ => h.idle (.inl (by rw [hc]; rfl)), hnone, by simp, ?_⟩ rfl
  intro _ r' hr'
  obtain ⟨i, hi⟩ := List.mem_iff_getElem?.mp hr'
  exact (hnone i r' hi).ended (hnone i r' hi).finished

theorem halt_good (h : p.Good) (hover : ∀ i r, p.current = some i → p.runs[i]? = some r → r.Over) :
    ({ p.clearTimer with stopped := true } : Poller).Good where
  timer := .inl h.clearTimer
  idle := fun _ => h.clearTimer
  runs := h.runs
  current := h.current
  halted := by
    intro _ r hr
    obtain ⟨i, hi⟩ := List.mem_iff_getElem?.mp hr
    by_cases hc : p.current = some i
    · exact hover i r hc hi
    · have hgood := h.runs i r hi
      rw [decide_eq_false hc] at hgood
      exact hgood.ended hgood.finished

theorem stop_good (h : p.Good) : p.stop.Good := by
  cases hc : p.current with
  | none =>
    have heq : p.stop = { p.clearTimer with stopped := true } := by
      simp [Poller.stop, Poller.clearTimer, hc]
    rw [heq]
    exact halt_good h fun i r hi => by simp [hc] at hi
  | some k =>
    have heq : p.stop = { (p.note k ({ · with aborted := true })).clearTimer with stopped := true } := by
      simp [Poller.stop, Poller.clearTimer, Poller.note, hc]
    rw [heq]
    refine halt_good (note_good h (fun c r hr => ⟨hr.finished, fun _ => .inr rfl, by simp⟩) fun r _ => .inr rfl) ?_
    intro i r hi hr
    obtain rfl : k = i := Option.some.inj (hc.symm.trans hi)
    obtain ⟨old, -, ⟨-, rfl⟩ | ⟨hne, -⟩⟩ := Indexed.of_modify hr
    · exact .inr rfl
    · exact absurd rfl hne

theorem step_good (h : p.Good) (hstep : p.step e = some q) : q.Good := by
  cases e with
  | kick force shouldRun =>
    cases hstep
    exact run_good h force shouldRun
  | fired timer shouldRun =>
    obtain ⟨hmem, heq⟩ := Option.ite_none_right_eq_some.mp hstep
    cases heq
    have hnone : p.pending.erase timer = [] := by
      rcases h.timer with hp | ⟨armed, hp, -⟩
      · rw [hp]
        rfl
      · rw [hp] at hmem ⊢
        simp [List.mem_singleton.mp hmem]
    exact run_good (p := { p with pending := p.pending.erase timer })
      ⟨.inl hnone, fun _ => hnone, h.runs, h.current, h.halted⟩ false shouldRun
  | begun k =>
    obtain ⟨-, heq⟩ := Option.ite_none_right_eq_some.mp hstep
    cases heq
    exact note_good (f := ({ · with begun := true })) h
      (fun c r hr => ⟨hr.finished, hr.ended, hr.deadline⟩) fun r hr => hr
  | settled k =>
    obtain ⟨-, heq⟩ := Option.ite_none_right_eq_some.mp hstep
    cases heq
    exact note_good (f := ({ · with settled := true })) h
      (fun c r hr => ⟨hr.finished, fun _ => .inl rfl, hr.deadline⟩) fun r _ => .inl rfl
  | expired k =>
    obtain ⟨-, heq⟩ := Option.ite_none_right_eq_some.mp hstep
    cases heq
    exact note_good (f := ({ · with aborted := true, deadline := false })) h
      (fun c r hr => ⟨hr.finished, fun _ => .inr rfl, by simp⟩) fun r _ => .inr rfl
  | finished k =>
    obtain ⟨hguard, heq⟩ := Option.ite_none_right_eq_some.mp hstep
    cases heq
    obtain ⟨r, hr, hready⟩ := (Option.any_eq_true _ _).mp hguard
    simp only [Bool.and_eq_true, Bool.or_eq_true, Bool.not_eq_true'] at hready
    exact finish_good h hr hready.2 hready.1.2
  | stop =>
    cases hstep
    exact stop_good h

theorem good_run (h : Run (fun p e q => p.step e = some q) {} es p) : p.Good :=
  h.invariant (fun _ _ _ => step_good) good_start

/-- Stopped, or a run or a timer is there to go on from. -/
def Poller.Awake (p : Poller) : Prop := p.stopped = true ∨ p.current.isSome = true ∨ p.pending ≠ []

theorem arm_awake (p : Poller) : p.arm.Awake := by
  unfold Poller.arm
  by_cases hs : p.stopped = true
  · rw [if_pos hs]
    exact .inl hs
  · rw [if_neg hs]
    exact .inr (.inr (List.cons_ne_nil _ _))

theorem run_awake (p : Poller) (force shouldRun : Bool) : (p.run force shouldRun).Awake := by
  unfold Poller.run
  split_ifs with hbusy hskip
  · exact (Bool.or_eq_true_iff.mp hbusy).imp_right .inl
  · exact arm_awake p
  · exact .inr (.inl rfl)

@[simp] theorem stop_stopped (p : Poller) : p.stop.stopped = true := by
  unfold Poller.stop
  dsimp only
  split <;> rfl

theorem step_awake (h : p.Awake) (hstep : p.step e = some q) : q.Awake := by
  cases e with
  | kick force shouldRun =>
    cases hstep
    exact run_awake p force shouldRun
  | fired timer shouldRun =>
    obtain ⟨-, heq⟩ := Option.ite_none_right_eq_some.mp hstep
    cases heq
    exact run_awake _ false shouldRun
  | finished k =>
    obtain ⟨-, heq⟩ := Option.ite_none_right_eq_some.mp hstep
    cases heq
    exact arm_awake _
  | stop =>
    cases hstep
    exact .inl (stop_stopped p)
  | _ =>
    obtain ⟨-, heq⟩ := Option.ite_none_right_eq_some.mp hstep
    cases heq
    exact h

/-- A kick wakes the poller, and no event but the stop ends that. -/
theorem awake_run {p0 : Poller} (h : Run (fun p e q => p.step e = some q) p0 es p) {force shouldRun : Bool}
    (hkick : .kick force shouldRun ∈ es) : p.Awake := by
  induction h with
  | nil => cases hkick
  | snoc _ hstep ih =>
    rcases List.mem_append.mp hkick with hkick | hkick
    · exact step_awake (ih hkick) hstep
    · cases List.mem_singleton.mp hkick
      cases hstep
      exact run_awake _ force shouldRun

@[simp] theorem note_runs_length (p : Poller) (k : ℕ) (f : TaskRun → TaskRun) :
    (p.note k f).runs.length = p.runs.length := List.length_modify ..

@[simp] theorem arm_runs (p : Poller) : p.arm.runs = p.runs := by
  unfold Poller.arm
  split_ifs <;> rfl

@[simp] theorem arm_stopped (p : Poller) : p.arm.stopped = p.stopped := by
  unfold Poller.arm
  split_ifs <;> rfl

@[simp] theorem stop_runs_length (p : Poller) : p.stop.runs.length = p.runs.length := by
  unfold Poller.stop
  dsimp only
  split
  · exact note_runs_length _ _ _
  · rfl

theorem run_of_stopped (h : p.stopped = true) (force shouldRun : Bool) : p.run force shouldRun = p := by
  unfold Poller.run
  rw [h]
  rfl

theorem halted_step (h : p.stopped = true) (hstep : p.step e = some q) :
    q.stopped = true ∧ q.runs.length = p.runs.length := by
  cases e with
  | kick force shouldRun =>
    cases hstep
    rw [run_of_stopped h]
    exact ⟨h, rfl⟩
  | fired timer shouldRun =>
    obtain ⟨-, heq⟩ := Option.ite_none_right_eq_some.mp hstep
    rw [run_of_stopped (by exact h)] at heq
    cases heq
    exact ⟨h, rfl⟩
  | finished k =>
    obtain ⟨-, heq⟩ := Option.ite_none_right_eq_some.mp hstep
    cases heq
    exact ⟨(arm_stopped _).trans h, (congrArg List.length (arm_runs _)).trans (note_runs_length _ _ _)⟩
  | stop =>
    cases hstep
    exact ⟨stop_stopped p, stop_runs_length p⟩
  | _ =>
    obtain ⟨-, heq⟩ := Option.ite_none_right_eq_some.mp hstep
    cases heq
    exact ⟨h, note_runs_length _ _ _⟩

theorem halted_run (hstop : p.stopped = true) (h : Run (fun p e q => p.step e = some q) p es q) :
    q.stopped = true ∧ q.runs.length = p.runs.length := by
  induction h with
  | nil => exact ⟨hstop, rfl⟩
  | snoc _ hstep ih =>
    obtain ⟨hnext, hlen⟩ := halted_step ih.1 hstep
    exact ⟨hnext, hlen.trans ih.2⟩

def Poller.InFlight (p : Poller) (k : ℕ) : Prop :=
  ∃ r ∈ p.runs[k]?, r.settled = false ∧ r.aborted = false

def Poller.SettleQueued (p : Poller) (k : ℕ) : Prop :=
  ∃ r ∈ p.runs[k]?, r.Over ∧ r.finished = false

structure Poller.Safe (p : Poller) (es : List PollEvent) : Prop where
  oneInFlight : ∀ i j, p.InFlight i → p.InFlight j → i = j
  /-- No run in flight hangs for good: its deadline is pending. -/
  deadline : ∀ i, p.InFlight i → ∃ r ∈ p.runs[i]?, r.deadline = true
  polling : (∃ shouldRun, .kick true shouldRun ∈ es) → p.stopped = false →
    (∃ k, p.InFlight k) ∨ (∃ k, p.SettleQueued k) ∨ ∃ timer, p.pending = [timer]
  /-- Every run is settled or abandoned, and none is started any more. -/
  stopped : p.stopped = true → (∀ r ∈ p.runs, r.Over) ∧
    ∀ fs q, Run (fun p e q => p.step e = some q) p fs q → q.runs.length = p.runs.length

theorem TaskRun.Good.unfinished {c : Bool} (h : r.Good c) (hs : r.settled = false) (ha : r.aborted = false) :
    r.finished = false := by
  by_contra hfin
  rcases h.ended (by simpa using hfin) with hover | hover
  · rw [hs] at hover
    cases hover
  · rw [ha] at hover
    cases hover

theorem Poller.Good.current_of_inFlight (h : p.Good) (hi : p.InFlight i) : p.current = some i := by
  obtain ⟨r, hr, hs, ha⟩ := hi
  have hgood := h.runs i r hr
  have hfin := hgood.finished
  rw [hgood.unfinished hs ha] at hfin
  simpa using hfin

theorem Poller.Good.safe (h : p.Good) (hawake : (∃ shouldRun, .kick true shouldRun ∈ es) → p.Awake) :
    p.Safe es where
  oneInFlight := by
    intro i j hi hj
    exact Option.some.inj ((h.current_of_inFlight hi).symm.trans (h.current_of_inFlight hj))
  deadline := by
    rintro i ⟨r, hr, hs, ha⟩
    have hgood := h.runs i r hr
    exact ⟨r, hr, hgood.deadline (hgood.unfinished hs ha) ha⟩
  polling := by
    intro hkick hstop
    rcases hawake hkick with hs | hc | hp
    · rw [hstop] at hs
      cases hs
    · obtain ⟨k, hk⟩ := Option.isSome_iff_exists.mp hc
      have hr := List.getElem?_eq_getElem (h.current k hk)
      have hfin := (h.runs k _ hr).finished
      rw [hk] at hfin
      by_cases hover : (p.runs.get ⟨k, h.current k hk⟩).Over
      · exact .inr (.inl ⟨k, _, hr, hover, by simpa using hfin⟩)
      · simp only [TaskRun.Over, not_or, Bool.not_eq_true] at hover
        exact .inl ⟨k, _, hr, hover⟩
    · rcases h.timer with hnone | ⟨timer, hone, -⟩
      · exact absurd hnone hp
      · exact .inr (.inr ⟨timer, hone⟩)
  stopped := fun hstop => ⟨h.halted hstop, fun _ _ hrun => (halted_run hstop hrun).2⟩

theorem safe_run (h : Run (fun p e q => p.step e = some q) {} es p) : p.Safe es :=
  (good_run h).safe fun ⟨_, hkick⟩ => awake_run h hkick

end OpenPoly
