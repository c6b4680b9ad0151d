import OpenPoly.Lib.Indexed
import OpenPoly.Lib.Run
import OpenPoly.Spec.TickLoop

/-! While no `start` is called before every `stop` has returned, at most one loop is alive,
the monitor holds it, and its state tells whether there is one. -/

namespace OpenPoly

open Transition (Run guarded)

variable {m m' : TickMonitor} {e : TickLoopEvent} {i j : ℕ} {t : TickTask}

/-- No call of `stop` is under way. -/
def TickMonitor.Quiet (m : TickMonitor) : Prop := ∀ s ∈ m.stops, s = .returned

instance (m : TickMonitor) : Decidable m.Quiet := inferInstanceAs (Decidable (∀ s ∈ m.stops, s = .returned))

/-- A `start` does not overtake a `stop`. -/
def inTurn (m : TickMonitor) : TickLoopEvent → Bool
  | .start => m.Quiet
  | _ => true

/-- What is so in every run in turn. -/
structure Held (m : TickMonitor) : Prop where
  one : ∀ (i : ℕ) (t : TickTask), m.tasks[i]? = some t → t.alive = true → m.task = some i
  told : ∀ i, m.task = some i → m.running = true ∧ ∃ t, m.tasks[i]? = some t
  joining : ∀ i, StopCall.joining i ∈ m.stops → m.task = none ∨ m.task = some i
  draining : StopCall.draining ∈ m.stops → m.task = none
  /-- Only a `stop` ends a loop. -/
  kept : m.Quiet → ∀ (i : ℕ) (t : TickTask), m.task = some i → m.tasks[i]? = some t →
    t.alive = true ∧ t.cancelled = false ∧ m.stopSet = false
  silent : m.Quiet → m.running = true → ∃ i, m.task = some i

theorem held_init : Held .init := by
  refine ⟨?_, ?_, ?_, ?_, ?_, ?_⟩ <;> simp [TickMonitor.init]

theorem held_start (h : Held m) (hquiet : m.Quiet) : Held m.start := by
  unfold TickMonitor.start
  split_ifs with htracks
  · exact h
  have hdead : ∀ (i : ℕ) (t : TickTask), m.tasks[i]? = some t → t.alive = false := by
    intro i t ht
    by_contra halive
    rw [Bool.not_eq_false] at halive
    refine htracks ?_
    unfold TickMonitor.tracksLoop
    rw [h.one i t ht halive, Option.bind_some, ht]
    exact halive
  refine ⟨?_, ?_, ?_, ?_, ?_, ?_⟩
  · intro i t ht halive
    rcases Indexed.of_snoc ht with hold | ⟨rfl, -⟩
    · rw [hdead i t hold] at halive
      cases halive
    · rfl
  · intro i hi
    cases hi
    exact ⟨rfl, _, List.getElem?_concat_length⟩
  · intro i hi
    cases hquiet _ hi
  · intro hdrain
    cases hquiet _ hdrain
  · intro _ i t hi ht
    cases hi
    obtain rfl := Option.some.inj (List.getElem?_concat_length.symm.trans ht)
    exact ⟨rfl, rfl, rfl⟩
  · exact fun _ _ => ⟨_, rfl⟩

theorem held_callStop (h : Held m) : Held m.callStop := by
  unfold TickMonitor.callStop
  split
  · next htask =>
    refine ⟨h.one, h.told, fun i _ => .inl htask, fun _ => htask, ?_, ?_⟩
    · intro hquiet
      cases hquiet .draining (by simp)
    · intro hquiet
      cases hquiet .draining (by simp)
  · next i htask =>
    refine ⟨?_, ?_, ?_, ?_, ?_, ?_⟩
    · intro k t ht halive
      obtain ⟨old, hold, ⟨-, rfl⟩ | ⟨-, rfl⟩⟩ := Indexed.of_modify ht
      · exact h.one k old hold halive
      · exact h.one k t hold halive
    · intro k hk
      obtain ⟨hrunning, t, ht⟩ := h.told k hk
      refine ⟨hrunning, ?_⟩
      simp only [List.getElem?_modify, ht]
      exact ⟨_, rfl⟩
    · intro k hk
      rcases List.mem_append.mp hk with hk | hk
      · exact h.joining k hk
      · cases List.mem_singleton.mp hk
        exact .inr htask
    · intro hdrain
      rcases List.mem_append.mp hdrain with hdrain | hdrain
      · exact h.draining hdrain
      · cases List.mem_singleton.mp hdrain
    · intro hquiet
      cases hquiet (.joining i) (by simp)
    · intro hquiet
      cases hquiet (.joining i) (by simp)

/-- A loop's step leaves everything else as it is, and ends the loop only where it was
cancelled or the stop event is set. -/
theorem resume_spec (m : TickMonitor) (i : ℕ) {t : TickTask} (raised : Bool) (halive : t.alive = true) :
    ∃ phase, (m.resume i t raised).tasks = m.tasks.set i { t with phase := phase } ∧
      (m.resume i t raised).task = m.task ∧ (m.resume i t raised).running = m.running ∧
      (m.resume i t raised).stopSet = m.stopSet ∧ (m.resume i t raised).stops = m.stops ∧
      (t.cancelled = false → m.stopSet = false → phase ≠ .done) := by
  obtain ⟨running, stopSet, task, tasks, stops, ticks, failures⟩ := m
  obtain ⟨phase, cancelled⟩ := t
  cases cancelled with
  | true => exact ⟨.done, rfl, rfl, rfl, rfl, rfl, nofun⟩
  | false =>
    cases phase with
    | done => cases halive
    | ticking => exact ⟨.waiting, rfl, rfl, rfl, rfl, rfl, fun _ _ => nofun⟩
    | created =>
      cases stopSet with
      | true => exact ⟨.done, rfl, rfl, rfl, rfl, rfl, fun _ => nofun⟩
      | false => exact ⟨.ticking, rfl, rfl, rfl, rfl, rfl, fun _ _ => nofun⟩
    | waiting =>
      cases stopSet with
      | true => exact ⟨.done, rfl, rfl, rfl, rfl, rfl, fun _ => nofun⟩
      | false => exact ⟨.ticking, rfl, rfl, rfl, rfl, rfl, fun _ _ => nofun⟩

theorem held_resume {raised : Bool} (h : Held m) (ht : m.tasks[i]? = some t) (halive : t.alive = true) :
    Held (m.resume i t raised) := by
  obtain ⟨phase, htasks, htask, hrunning, hstopSet, hstops, hends⟩ := resume_spec m i raised halive
  have hquiet : (m.resume i t raised).Quiet ↔ m.Quiet := by
    unfold TickMonitor.Quiet
    rw [hstops]
  refine ⟨?_, ?_, ?_, ?_, ?_, ?_⟩
  · intro k u hu hualive
    rw [htask]
    rw [htasks] at hu
    rcases Indexed.of_set hu with ⟨rfl, -⟩ | ⟨-, hold⟩
    · exact h.one k t ht halive
    · exact h.one k u hold hualive
  · intro k hk
    rw [htask] at hk
    obtain ⟨hrun, u, hu⟩ := h.told k hk
    refine ⟨hrunning.trans hrun, ?_⟩
    rw [htasks, List.getElem?_set]
    split_ifs with hik hlt
    · exact ⟨_, rfl⟩
    · exact absurd (List.getElem?_eq_some_iff.mp ht).1 hlt
    · exact ⟨u, hu⟩
  · rw [hstops, htask]
    exact h.joining
  · rw [hstops, htask]
    exact h.draining
  · intro hq k u hk hu
    rw [htask] at hk
    rw [htasks] at hu
    rw [hstopSet]
    rcases Indexed.of_set hu with ⟨rfl, rfl⟩ | ⟨-, hold⟩
    · obtain ⟨-, hcancelled, hstop⟩ := h.kept (hquiet.mp hq) k t hk ht
      exact ⟨decide_eq_true (hends hcancelled hstop), hcancelled, hstop⟩
    · exact h.kept (hquiet.mp hq) k u hk hold
  · intro hq hrun
    rw [htask]
    exact h.silent (hquiet.mp hq) (hrunning ▸ hrun)

theorem mem_of_mem_set {s s' : StopCall} {stops : List StopCall} (h : s ∈ stops.set j s') :
    s = s' ∨ s ∈ stops := by
  rcases List.mem_or_eq_of_mem_set h with h | h
  · exact .inr h
  · exact .inl h

theorem held_joined (h : Held m) (hj : m.stops[j]? = some (.joining i))
    (hdone : ¬ m.tasks[i]?.any TickTask.alive = true) :
    Held { m with task := none, stops := m.stops.set j .draining } := by
  have hloud : ¬ TickMonitor.Quiet { m with task := none, stops := m.stops.set j .draining } := by
    intro hquiet
    have hlt := (List.getElem?_eq_some_iff.mp hj).1
    cases hquiet .draining (List.mem_set hlt _)
  refine ⟨?_, nofun, fun _ _ => .inl rfl, fun _ => rfl, fun hq => absurd hq hloud, fun hq => absurd hq hloud⟩
  intro k t ht halive
  rcases h.joining i (List.mem_of_getElem? hj) with hnone | hsome
  · rw [h.one k t ht halive] at hnone
    cases hnone
  · obtain rfl : k = i := Option.some.inj ((h.one k t ht halive).symm.trans hsome)
    refine absurd ?_ hdone
    rw [show m.tasks[k]? = some t from ht]
    exact halive

theorem held_stopped (h : Held m) (hj : m.stops[j]? = some .draining) :
    Held { m with running := false, stops := m.stops.set j .returned } := by
  have hnone := h.draining (List.mem_of_getElem? hj)
  refine ⟨h.one, ?_, ?_, fun _ => hnone, ?_, nofun⟩
  · intro k hk
    rw [show m.task = some k from hk] at hnone
    cases hnone
  · intro k hk
    rcases mem_of_mem_set hk with heq | hk
    · cases heq
    · exact h.joining k hk
  · intro _ k t hk
    rw [show m.task = some k from hk] at hnone
    cases hnone

theorem held_step (h : Held m) (hturn : inTurn m e = true) (hstep : m.step e = some m') : Held m' := by
  cases e with
  | start =>
    cases hstep
    exact held_start h (of_decide_eq_true hturn)
  | stop =>
    cases hstep
    exact held_callStop h
  | resume i raised =>
    simp only [TickMonitor.step] at hstep
    split at hstep
    · split_ifs at hstep with halive
      cases hstep
      exact held_resume h ‹_› halive
    · cases hstep
  | joined j =>
    simp only [TickMonitor.step] at hstep
    split at hstep
    · split_ifs at hstep with hdone
      cases hstep
      exact held_joined h ‹_› hdone
    · cases hstep
  | stopped j =>
    simp only [TickMonitor.step] at hstep
    split at hstep
    · cases hstep
      exact held_stopped h ‹_›
    · cases hstep

/-- The runs of a monitor in which no `start` overtakes a `stop`. -/
def TickRuns (es : List TickLoopEvent) (m : TickMonitor) : Prop :=
  Run (guarded (fun m e => inTurn m e = true) fun m e m' => m.step e = some m') .init es m

theorem TickRuns.held {es : List TickLoopEvent} (h : TickRuns es m) : Held m :=
  Run.invariant (fun _ _ _ hm hstep => held_step hm hstep.1 hstep.2) h held_init

/-- However starts, stops and ticks interleave, and whatever ticks raise: at most one loop is
alive, it is the one the monitor would stop, and only a `stop` ends it. Between stops the
state says whether there is one. -/
theorem one_tick_loop {es : List TickLoopEvent} (h : TickRuns es m) :
    (∀ (i k : ℕ) (t u : TickTask), m.tasks[i]? = some t → m.tasks[k]? = some u → t.alive = true →
      u.alive = true → i = k) ∧
      (∀ (i : ℕ) (t : TickTask), m.tasks[i]? = some t → t.alive = true →
        m.task = some i ∧ m.running = true) ∧
      (m.Quiet → (m.running = true ↔ ∃ (i : ℕ) (t : TickTask), m.tasks[i]? = some t ∧ t.alive = true)) := by
  have hheld := h.held
  refine ⟨?_, ?_, ?_⟩
  · intro i k t u ht hu htalive hualive
    exact Option.some.inj ((hheld.one i t ht htalive).symm.trans (hheld.one k u hu hualive))
  · intro i t ht halive
    have htask := hheld.one i t ht halive
    exact ⟨htask, (hheld.told i htask).1⟩
  · intro hquiet
    constructor
    · intro hrunning
      obtain ⟨i, hi⟩ := hheld.silent hquiet hrunning
      obtain ⟨-, t, ht⟩ := hheld.told i hi
      exact ⟨i, t, ht, (hheld.kept hquiet i t hi ht).1⟩
    · rintro ⟨i, t, ht, halive⟩
      exact (hheld.told i (hheld.one i t ht halive)).1

/-- A monitor stopped and started again, its tick failing. -/
def startedTwice : List TickLoopEvent :=
  [.start, .resume 0 false, .resume 0 true, .stop, .resume 0 false, .joined 0, .stopped 0, .start,
    .resume 1 false]

theorem one_tick_loop_sample : ∃ m : TickMonitor, TickRuns startedTwice m ∧ m.ticks = 2 ∧ m.failures = 1 ∧
    (m.running = true ↔ ∃ (i : ℕ) (t : TickTask), m.tasks[i]? = some t ∧ t.alive = true) := by
  have hsome : (startedTwice.foldlM (fun m e => if inTurn m e then m.step e else none) .init).isSome = true := by
    decide
  obtain ⟨m, hm⟩ := Option.isSome_iff_exists.mp hsome
  have hread : (startedTwice.foldlM (fun m e => if inTurn m e then m.step e else none) .init).map
      (fun m => (m.ticks, m.failures, decide m.Quiet)) = some (2, 1, true) := by decide
  rw [hm] at hread
  simp only [Option.map_some, Option.some.injEq, Prod.mk.injEq, decide_eq_true_eq] at hread
  have hrun : TickRuns startedTwice m := Transition.run_checkedM hm
  exact ⟨m, hrun, hread.1, hread.2.1, (one_tick_loop hrun).2.2 hread.2.2⟩

/-- A `start` between the end of the loop and the return of the `stop` that ended it: the new
loop is lost to the monitor, which says it is stopped. -/
theorem stop_overtaken : ∃ m : TickMonitor,
    Run (fun m e m' => m.step e = some m') .init
      [.start, .resume 0 false, .stop, .resume 0 false, .start, .joined 0, .stopped 0] m ∧
      m.Quiet ∧ m.running = false ∧ m.task = none ∧ m.tasks[1]?.any TickTask.alive = true :=
  ⟨_, Transition.run_foldlM _ rfl, by decide, rfl, rfl, rfl⟩

end OpenPoly
