import OpenPoly.Lib.Run
import OpenPoly.Spec.Reconnect

/-! The reconnects of the news client: every attempt after the first comes after a wait
or a clean close, the waits double while nothing connects, and none follows a rejection
or a stop. -/

namespace OpenPoly

open Transition

/-- The backoff the attempts so far leave, newest first. -/
def carried (initial max : ℚ) (attempts : List WsAttempt) : ℚ :=
  match attempts.head?.bind WsAttempt.wait with
  | some d => min (d * 2) max
  | none => initial

def delayAfter (initial max : ℚ) (a : WsAttempt) (older : List WsAttempt) : ℚ :=
  if a.connected then initial else carried initial max older

def WsAttempt.ClosedCleanly (a : WsAttempt) : Prop :=
  a.connected ∧ a.ending = some .closed ∧ a.wait = none

def WsAttempt.Lost (a : WsAttempt) : Prop := a.ending = some .dropped ∨ a.ending = some .failed

/-- Attempts that are over, each with the wait it calls for. -/
def Spaced (initial max : ℚ) : List WsAttempt → Prop
  | [] => True
  | a :: older =>
    (a.ClosedCleanly ∨ a.Lost ∧ a.wait = some (delayAfter initial max a older)) ∧ Spaced initial max older

/-- The same for attempts of which the newest may go on. -/
def SpacedSoFar (initial max : ℚ) (stop : Bool) : List WsAttempt → Prop
  | [] => True
  | a :: older =>
    (∀ d ∈ a.wait, d = delayAfter initial max a older) ∧ (a.ending = some .rejected → stop) ∧
      Spaced initial max older

variable {initial max : ℚ} {a b : WsAttempt} {attempts newer older : List WsAttempt} {stop : Bool}

theorem Spaced.of_append (h : Spaced initial max (newer ++ older)) : Spaced initial max older := by
  induction newer with
  | nil => exact h
  | cons a newer ih => exact ih h.2

theorem WsAttempt.ClosedCleanly.not_rejected (h : a.ClosedCleanly) : a.ending ≠ some .rejected := by
  rw [h.2.1]
  decide

theorem WsAttempt.Lost.not_rejected (h : a.Lost) : a.ending ≠ some .rejected := by
  rcases h with h | h <;> rw [h] <;> decide

theorem Spaced.not_rejected (h : Spaced initial max attempts) :
    ∀ a ∈ attempts, a.ending ≠ some .rejected := by
  induction attempts with
  | nil =>
    intro a ha
    cases ha
  | cons b older ih =>
    intro a ha
    rcases List.mem_cons.mp ha with rfl | ha
    · exact h.1.elim (·.not_rejected) (·.1.not_rejected)
    · exact ih h.2 a ha

theorem Spaced.recorded (h : Spaced initial max attempts) : SpacedSoFar initial max stop attempts := by
  cases attempts with
  | nil => trivial
  | cons a older =>
    refine ⟨?_, fun hr => absurd hr (h.not_rejected a List.mem_cons_self), h.2⟩
    intro d hd
    rcases h.1 with hclosed | ⟨-, hwait⟩
    · rw [hclosed.2.2] at hd
      cases hd
    · rw [hwait] at hd
      exact (Option.some.inj hd).symm

/-- No wait is shorter than the first. -/
theorem Spaced.le_carried (h0 : 0 ≤ initial) (hle : initial ≤ max) (h : Spaced initial max attempts) :
    initial ≤ carried initial max attempts := by
  induction attempts with
  | nil => exact le_rfl
  | cons a older ih =>
    rcases h.1 with hclosed | ⟨-, hwait⟩
    · simp [carried, hclosed.2.2]
    · have hdelay : initial ≤ delayAfter initial max a older := by
        unfold delayAfter
        split_ifs
        · exact le_rfl
        · exact ih h.2
      have hdouble : initial ≤ delayAfter initial max a older * 2 := by linarith
      simpa [carried, hwait] using And.intro hdouble hle

theorem Spaced.le_delayAfter (h0 : 0 ≤ initial) (hle : initial ≤ max) (h : Spaced initial max older) :
    initial ≤ delayAfter initial max a older := by
  unfold delayAfter
  split_ifs
  · exact le_rfl
  · exact h.le_carried h0 hle

/-- What the attempts and the backoff are in each phase. -/
inductive Traced (initial max : ℚ) : WsLoop → Prop
  | created {stop : Bool} : Traced initial max ⟨initial, max, initial, .created, stop, []⟩
  | dialing {stop : Bool} {older : List WsAttempt} (h : Spaced initial max older) :
      Traced initial max ⟨initial, max, carried initial max older, .dialing, stop, {} :: older⟩
  | consuming {stop : Bool} {older : List WsAttempt} (h : Spaced initial max older) :
      Traced initial max ⟨initial, max, initial, .consuming, stop, { connected := true } :: older⟩
  | pausing {stop : Bool} {older : List WsAttempt} (h : Spaced initial max older) :
      Traced initial max
        ⟨initial, max, initial, .pausing, stop, { connected := true, ending := some .closed } :: older⟩
  | waiting {stop : Bool} {a : WsAttempt} {older : List WsAttempt} (hlost : a.Lost) (hwait : a.wait = none)
      (h : Spaced initial max older) :
      Traced initial max ⟨initial, max, delayAfter initial max a older, .waiting, stop, a :: older⟩
  | ended {backoff : ℚ} {stop : Bool} {attempts : List WsAttempt} (h : SpacedSoFar initial max stop attempts) :
      Traced initial max ⟨initial, max, backoff, .ended, stop, attempts⟩

variable {s t u : WsLoop} {e : WsEvent} {es fs : List WsEvent}

theorem Traced.recorded (h : Traced initial max s) : SpacedSoFar initial max s.stop s.attempts := by
  cases h with
  | created => trivial
  | dialing h => exact ⟨by simp, by simp, h⟩
  | consuming h => exact ⟨by simp, by simp, h⟩
  | pausing h => exact ⟨by simp, by simp, h⟩
  | waiting hlost hwait h => exact ⟨by simp [hwait], fun hr => absurd hr hlost.not_rejected, h⟩
  | ended h => exact h

theorem top_traced {phase : ClientPhase} (h : Spaced initial max attempts) :
    Traced initial max (WsLoop.top ⟨initial, max, carried initial max attempts, phase, stop, attempts⟩) := by
  cases stop with
  | true => exact .ended h.recorded
  | false => exact .dialing h

theorem Traced.stopped (h : Traced initial max s) : Traced initial max { s with stop := true } := by
  cases h with
  | created => exact .created
  | dialing h => exact .dialing h
  | consuming h => exact .consuming h
  | pausing h => exact .pausing h
  | waiting hlost hwait h => exact .waiting hlost hwait h
  | @ended backoff stop attempts h =>
    refine .ended ?_
    cases attempts with
    | nil => trivial
    | cons a older => exact ⟨h.1, fun _ => rfl, h.2.2⟩

/-- What is left of an attempt an exception ends. -/
theorem traced_raised (hwait : a.wait = none) (h : Spaced initial max older) {ending : AttemptEnd}
    {phase : ClientPhase} {backoff : ℚ} (hphase : phase = .dialing ∨ phase = .consuming)
    (hbackoff : backoff = delayAfter initial max a older)
    (hstep : WsLoop.step ⟨initial, max, backoff, phase, stop, a :: older⟩ (.raised ending) = some t) :
    Traced initial max t := by
  simp only [WsLoop.step] at hstep
  rw [if_pos hphase] at hstep
  subst hbackoff
  cases ending with
  | closed => cases hstep
  | rejected =>
    cases hstep
    exact .ended ⟨by simp [hwait], fun _ => rfl, h⟩
  | dropped =>
    cases hstep
    exact .waiting (a := { a with ending := some .dropped }) (.inl rfl) hwait h
  | failed =>
    cases hstep
    exact .waiting (a := { a with ending := some .failed }) (.inr rfl) hwait h

theorem traced_step (h : Traced initial max s) (hstep : s.step e = some t) : Traced initial max t := by
  cases e with
  | begin =>
    obtain ⟨hphase, heq⟩ := Option.ite_none_right_eq_some.mp hstep
    cases heq
    cases h with
    | created =>
      have hnone : Spaced initial max [] := trivial
      exact top_traced hnone
    | _ => cases hphase
  | opened =>
    obtain ⟨hphase, heq⟩ := Option.ite_none_right_eq_some.mp hstep
    cases heq
    cases h with
    | dialing h => exact .consuming h
    | _ => cases hphase
  | raised ending =>
    cases h with
    | dialing h => exact traced_raised (a := {}) rfl h (.inl rfl) rfl hstep
    | consuming h => exact traced_raised (a := { connected := true }) rfl h (.inr rfl) rfl hstep
    | _ => simp [WsLoop.step] at hstep
  | closed =>
    obtain ⟨hphase, heq⟩ := Option.ite_none_right_eq_some.mp hstep
    cases heq
    cases h with
    | consuming h => exact .pausing h
    | _ => cases hphase
  | yielded =>
    obtain ⟨hphase, heq⟩ := Option.ite_none_right_eq_some.mp hstep
    cases heq
    cases h with
    | @pausing stop older h =>
      -- A clean close leaves the initial backoff, and no wait.
      have hspaced : Spaced initial max ({ connected := true, ending := some .closed } :: older) :=
        ⟨.inl ⟨rfl, rfl, rfl⟩, h⟩
      exact top_traced hspaced
    | _ => cases hphase
  | waited =>
    obtain ⟨hphase, heq⟩ := Option.ite_none_right_eq_some.mp hstep
    cases heq
    cases h with
    | @waiting stop a older hlost hwait h =>
      have hspaced : Spaced initial max ({ a with wait := some (delayAfter initial max a older) } :: older) :=
        ⟨.inr ⟨hlost, rfl⟩, h⟩
      exact top_traced hspaced
    | _ => cases hphase
  | woken =>
    obtain ⟨⟨hphase, hstop⟩, heq⟩ := Option.ite_none_right_eq_some.mp hstep
    cases heq
    cases h with
    | waiting hlost hwait h =>
      simp only at hstop
      subst hstop
      exact .ended ⟨by simp [hwait], fun _ => rfl, h⟩
    | _ => cases hphase
  | stop =>
    cases hstep
    exact h.stopped
  | cancel =>
    obtain ⟨-, heq⟩ := Option.ite_none_right_eq_some.mp hstep
    cases heq
    have hrec := h.recorded
    cases h <;> exact .ended hrec

theorem traced_run (h : Run (fun s e t => s.step e = some t) (WsLoop.start initial max) es t) :
    Traced initial max t :=
  h.invariant (fun _ _ _ => traced_step) .created

@[simp] theorem note_attempts_length (s : WsLoop) (f : WsAttempt → WsAttempt) :
    (s.note f).attempts.length = s.attempts.length := by
  simp [WsLoop.note]

theorem stopped_top (h : s.stop = true) : s.top.stop = true ∧ s.top.attempts.length = s.attempts.length := by
  unfold WsLoop.top
  rw [if_pos h]
  exact ⟨h, rfl⟩

/-- Once the stop is set, it stays, and no step dials. -/
theorem stopped_step (hstop : s.stop = true) (hstep : s.step e = some t) :
    t.stop = true ∧ t.attempts.length = s.attempts.length := by
  cases e with
  | begin =>
    obtain ⟨-, heq⟩ := Option.ite_none_right_eq_some.mp hstep
    cases heq
    exact stopped_top hstop
  | opened =>
    obtain ⟨-, heq⟩ := Option.ite_none_right_eq_some.mp hstep
    cases heq
    exact ⟨hstop, note_attempts_length _ _⟩
  | raised ending =>
    obtain ⟨-, heq⟩ := Option.ite_none_right_eq_some.mp hstep
    cases ending with
    | closed => cases heq
    | rejected =>
      cases heq
      exact ⟨rfl, note_attempts_length _ _⟩
    | _ =>
      cases heq
      exact ⟨hstop, note_attempts_length _ _⟩
  | closed =>
    obtain ⟨-, heq⟩ := Option.ite_none_right_eq_some.mp hstep
    cases heq
    exact ⟨hstop, note_attempts_length _ _⟩
  | yielded =>
    obtain ⟨-, heq⟩ := Option.ite_none_right_eq_some.mp hstep
    cases heq
    exact stopped_top hstop
  | waited =>
    obtain ⟨-, heq⟩ := Option.ite_none_right_eq_some.mp hstep
    cases heq
    obtain ⟨hnext, hlen⟩ := stopped_top (s := (s.note ({ · with wait := some s.backoff })).grow) hstop
    exact ⟨hnext, hlen.trans (note_attempts_length _ _)⟩
  | woken =>
    obtain ⟨-, heq⟩ := Option.ite_none_right_eq_some.mp hstep
    cases heq
    exact stopped_top (s := s.grow) hstop
  | stop =>
    cases hstep
    exact ⟨rfl, rfl⟩
  | cancel =>
    obtain ⟨-, heq⟩ := Option.ite_none_right_eq_some.mp hstep
    cases heq
    exact ⟨hstop, rfl⟩

theorem stopped_run (hstop : s.stop = true) (h : Run (fun s e t => s.step e = some t) s es t) :
    t.stop = true ∧ t.attempts.length = s.attempts.length := by
  induction h with
  | nil => exact ⟨hstop, rfl⟩
  | snoc _ hstep ih =>
    obtain ⟨hnext, hlen⟩ := stopped_step ih.1 hstep
    exact ⟨hnext, hlen.trans ih.2⟩

/-- The loop as the news manager's model has it, without its delays. -/
def WsLoop.client (s : WsLoop) (freshnessSeconds : ℤ) : NewsClient where
  phase := s.phase
  stop := s.stop
  freshnessSeconds := freshnessSeconds

theorem top_client (s : WsLoop) (freshness : ℤ) (signal : NewsSignal) :
    ∃ signals, (s.client freshness).top signal = (s.top.client freshness, signals) := by
  unfold NewsClient.top WsLoop.top
  by_cases hstop : s.stop = true
  · exact ⟨_, by rw [if_pos hstop]; exact if_pos hstop⟩
  · exact ⟨_, by rw [if_neg hstop]; exact if_neg hstop⟩

/-- Every step the loop takes by itself is one of the manager's client; `InvalidStatus` comes
of an attempt that has not connected. -/
theorem client_follows {freshness : ℤ} (hown : e ≠ .stop ∧ e ≠ .cancel)
    (hrejected : e = .raised .rejected → s.phase = .dialing) (hstep : s.step e = some t) :
    ∃ ce signals, (s.client freshness).step ce = some (t.client freshness, signals) := by
  cases e with
  | begin =>
    obtain ⟨hphase, heq⟩ := Option.ite_none_right_eq_some.mp hstep
    cases heq
    obtain ⟨signals, htop⟩ := top_client s freshness .connecting
    exact ⟨.begin, signals, (if_pos ⟨hphase, rfl⟩).trans (congrArg some htop)⟩
  | opened =>
    obtain ⟨hphase, heq⟩ := Option.ite_none_right_eq_some.mp hstep
    cases heq
    exact ⟨.opened, _, if_pos ⟨hphase, rfl⟩⟩
  | raised ending =>
    obtain ⟨hphase, heq⟩ := Option.ite_none_right_eq_some.mp hstep
    cases ending with
    | closed => cases heq
    | rejected =>
      cases heq
      exact ⟨.rejected "", _, if_pos ⟨hrejected rfl, rfl⟩⟩
    | _ =>
      cases heq
      exact ⟨.dropped, _, if_pos hphase⟩
  | closed =>
    obtain ⟨hphase, heq⟩ := Option.ite_none_right_eq_some.mp hstep
    cases heq
    exact ⟨.closed, _, if_pos ⟨hphase, rfl⟩⟩
  | yielded =>
    obtain ⟨hphase, heq⟩ := Option.ite_none_right_eq_some.mp hstep
    cases heq
    obtain ⟨signals, htop⟩ := top_client s freshness .reconnectAttempt
    exact ⟨.again, signals, (if_pos (.inl hphase)).trans (congrArg some htop)⟩
  | waited =>
    obtain ⟨hphase, heq⟩ := Option.ite_none_right_eq_some.mp hstep
    cases heq
    obtain ⟨signals, htop⟩ :=
      top_client (s.note ({ · with wait := some s.backoff })).grow freshness .reconnectAttempt
    exact ⟨.again, signals, (if_pos (.inr hphase)).trans (congrArg some htop)⟩
  | woken =>
    obtain ⟨⟨hphase, -⟩, heq⟩ := Option.ite_none_right_eq_some.mp hstep
    cases heq
    obtain ⟨signals, htop⟩ := top_client s.grow freshness .reconnectAttempt
    exact ⟨.again, signals, (if_pos (.inr hphase)).trans (congrArg some htop)⟩
  | stop => exact absurd rfl hown.1
  | cancel => exact absurd rfl hown.2

/-- The attempts of a loop, newest first, and what comes between them. -/
structure Reconnects (initial max : ℚ) (t : WsLoop) : Prop where
  /-- Between two attempts: a clean close, or a wait no shorter than the initial one. -/
  spaced : ∀ newer b a older, t.attempts = newer ++ b :: a :: older →
    a.ClosedCleanly ∨ a.Lost ∧ ∃ d ∈ a.wait, initial ≤ d
  waits : ∀ newer a older d, t.attempts = newer ++ a :: older → a.wait = some d →
    d = delayAfter initial max a older
  rejected : ∀ a ∈ t.attempts, a.ending = some .rejected → t.stop = true
  stopped : t.stop = true → ∀ fs u, Run (fun s e t => s.step e = some t) t fs u →
    u.attempts.length = t.attempts.length

theorem Traced.spaced (h0 : 0 ≤ initial) (hle : initial ≤ max) (h : Traced initial max t)
    (heq : t.attempts = newer ++ b :: a :: older) : a.ClosedCleanly ∨ a.Lost ∧ ∃ d ∈ a.wait, initial ≤ d := by
  have hspaced : Spaced initial max (a :: older) := by
    have hrec := h.recorded
    rw [heq] at hrec
    cases newer with
    | nil => exact hrec.2.2
    | cons c newer =>
      have hall : Spaced initial max (newer ++ [b] ++ a :: older) := by simpa using hrec.2.2
      exact hall.of_append
  rcases hspaced.1 with hclosed | ⟨hlost, hwait⟩
  · exact .inl hclosed
  · exact .inr ⟨hlost, _, hwait, hspaced.2.le_delayAfter h0 hle⟩

theorem Traced.waits (h : Traced initial max t) (heq : t.attempts = newer ++ a :: older) {d : ℚ}
    (hd : a.wait = some d) : d = delayAfter initial max a older := by
  have hrec := h.recorded
  rw [heq] at hrec
  cases newer with
  | nil => exact hrec.1 d hd
  | cons c newer =>
    have hspaced : Spaced initial max (a :: older) := hrec.2.2.of_append
    have hrec' : SpacedSoFar initial max true (a :: older) := hspaced.recorded
    exact hrec'.1 d hd

theorem Traced.rejected (h : Traced initial max t) :
    ∀ a ∈ t.attempts, a.ending = some .rejected → t.stop = true := by
  intro a ha hr
  have hrec := h.recorded
  cases hattempts : t.attempts with
  | nil =>
    rw [hattempts] at ha
    cases ha
  | cons b older =>
    rw [hattempts] at ha hrec
    rcases List.mem_cons.mp ha with rfl | ha
    · exact hrec.2.1 hr
    · exact absurd hr (hrec.2.2.not_rejected a ha)

theorem reconnects (h0 : 0 ≤ initial) (hle : initial ≤ max)
    (h : Run (fun s e t => s.step e = some t) (WsLoop.start initial max) es t) : Reconnects initial max t where
  spaced := fun _ _ _ _ heq => (traced_run h).spaced h0 hle heq
  waits := fun _ _ _ _ heq hd => (traced_run h).waits heq hd
  rejected := (traced_run h).rejected
  stopped := fun hstop _ _ hrun => (stopped_run hstop hrun).2

theorem reconnects_sample :
    Reconnects 1 30
      ⟨1, 30, 4, .dialing, false,
        [{}, { ending := some .failed, wait := some 2 }, { ending := some .dropped, wait := some 1 }]⟩ := by
  have hrun : [WsEvent.begin, .raised .dropped, .waited, .raised .failed, .waited].foldlM WsLoop.step
      (WsLoop.start 1 30) =
      some ⟨1, 30, 4, .dialing, false,
        [{}, { ending := some .failed, wait := some 2 }, { ending := some .dropped, wait := some 1 }]⟩ := by
    simp [WsLoop.step, WsLoop.start, WsLoop.top, WsLoop.note, WsLoop.grow]
    norm_num
  exact reconnects (by norm_num) (by norm_num) (run_foldlM _ hrun)

/-- A connection the server closes is followed by the next attempt at once. -/
theorem closed_redials :
    ¬ ∀ es t, Run (fun s e t => s.step e = some t) (WsLoop.start 1 30) es t →
      ∀ newer b a older, t.attempts = newer ++ b :: a :: older → ∃ d ∈ a.wait, 1 ≤ d := by
  intro h
  have hrun : [WsEvent.begin, .opened, .closed, .yielded].foldlM WsLoop.step (WsLoop.start 1 30) =
      some ⟨1, 30, 1, .dialing, false, [{}, { connected := true, ending := some .closed }]⟩ := rfl
  obtain ⟨d, hd, -⟩ := h _ _ (run_foldlM _ hrun) [] _ _ [] rfl
  cases hd

end OpenPoly
