import OpenPoly.Proofs.ExitHistory
import OpenPoly.Proofs.Peaks

/-! The backoff of a close that did not fill: over every run it is the one the failures
in a row at the head of the position's history call for. -/

namespace OpenPoly

open Transition

/-- A close that did not fill, and the clock's reading then. -/
structure FailedClose where
  order : SellOrder
  clock : ℚ

/-- The closes that did not fill since the last fill or evaluable non-close, newest first. -/
def failures : List Evaluation → List FailedClose
  | [] => []
  | e :: history =>
    match e.outcome with
    | .failed order clock _ => ⟨order, clock⟩ :: failures history
    | .filled => []
    | .within => []
    | _ => failures history

/-- A close with the trigger of the failed one and no lower floor. -/
def SellOrder.Resumes (order : SellOrder) (prev : FailedClose) : Prop :=
  order.trigger = prev.order.trigger ∧ prev.order.floor - 1 / 10 ^ 9 ≤ order.floor

instance (order : SellOrder) (prev : FailedClose) : Decidable (order.Resumes prev) :=
  inferInstanceAs (Decidable (_ ∧ _))

/-- How many of the failures, from the newest back, each resume the one before. -/
def streak : List FailedClose → ℕ
  | [] => 0
  | [_] => 1
  | f :: prev :: rest => if f.order.Resumes prev then streak (prev :: rest) + 1 else 1

def delayOf (tick : ℚ) (fs : List FailedClose) : ℚ :=
  min (tick * 2 ^ (streak fs - 1)) closeBackoffMaxSeconds

/-- The delay of the newest failure has not passed, for a close that resumes it. -/
def Waits (tick : ℚ) (fs : List FailedClose) (order : SellOrder) (clock : ℚ) : Prop :=
  ∃ f ∈ fs.head?, order.Resumes f ∧ clock < f.clock + delayOf tick fs

def backoffOf (tick : ℚ) (fs : List FailedClose) : Option Backoff :=
  fs.head?.map fun f => ⟨f.order.trigger, delayOf tick fs, f.clock + delayOf tick fs, some f.order.floor⟩

theorem streak_pos (f : FailedClose) (fs : List FailedClose) : 1 ≤ streak (f :: fs) := by
  unfold streak
  split
  · rename_i h; cases h
  · exact le_rfl
  · split_ifs
    · exact Nat.le_add_left 1 _
    · exact le_rfl

theorem floorMovedLower_eq_false {floor prev : ℚ} :
    floorMovedLower (some floor) (some prev) = false ↔ prev - 1 / 10 ^ 9 ≤ floor := by
  simp [floorMovedLower]

/-- The delay doubles up to its bound while the failures resume one another. -/
theorem nextDelay_eq (tick : ℚ) (order : SellOrder) (clock : ℚ) (fs : List FailedClose) :
    nextDelay (backoffOf tick fs) order.trigger (some order.floor) tick = delayOf tick (⟨order, clock⟩ :: fs) := by
  cases fs with
  | nil => simp [backoffOf, nextDelay, delayOf, streak]
  | cons prev rest =>
    have hresumes : (prev.order.trigger = order.trigger ∧
        floorMovedLower (some order.floor) (some prev.order.floor) = false) ↔ order.Resumes prev := by
      rw [floorMovedLower_eq_false]
      exact and_congr_left fun _ => eq_comm
    simp only [backoffOf, List.head?_cons, Option.map_some, nextDelay, hresumes]
    unfold delayOf
    rw [show streak (⟨order, clock⟩ :: prev :: rest) =
      if order.Resumes prev then streak (prev :: rest) + 1 else 1 from rfl]
    split_ifs with h
    · obtain ⟨k, hk⟩ := Nat.exists_eq_add_of_le' (streak_pos prev rest)
      rw [hk, Nat.add_sub_cancel, Nat.add_sub_cancel, pow_succ, ← mul_assoc]
      -- past the bound, twice the delay is past it too
      rcases le_total (tick * 2 ^ k) closeBackoffMaxSeconds with hle | hge
      · rw [min_eq_left hle]
      · rw [min_eq_right hge]
        have hbound : (0 : ℚ) ≤ closeBackoffMaxSeconds := by norm_num [closeBackoffMaxSeconds]
        rw [min_eq_right (by linarith), min_eq_right (by linarith)]
    · simp

theorem marksOf_backoff (tick : ℚ) (history : List Evaluation) :
    (marksOf tick history).backoff = backoffOf tick (failures history) := by
  induction history with
  | nil => rfl
  | cons e history ih =>
    show (e.outcome.mark tick (marksOf tick history)).backoff = _
    unfold failures
    cases e.outcome with
    | failed order clock key =>
      show some (nextBackoff tick (marksOf tick history).backoff order clock) = _
      rw [ih, nextBackoff, nextDelay_eq tick order clock]
      rfl
    | close order clock start => cases start <;> exact ih
    | filled => rfl
    | within => rfl
    | _ => exact ih

theorem backingOff_iff {tick : ℚ} {fs : List FailedClose} {s : Slot} (h : s.marks.backoff = backoffOf tick fs)
    (order : SellOrder) (clock : ℚ) :
    s.backingOff clock order.trigger (some order.floor) = true ↔ Waits tick fs order clock := by
  have hbackoff : s.state.bind PositionState.backoff = backoffOf tick fs := by
    rw [← h]
    unfold Slot.marks Slot.position
    cases s.state <;> rfl
  unfold Slot.backingOff Waits
  rw [hbackoff]
  cases fs with
  | nil => simp [backoffOf]
  | cons f fs =>
    simp only [backoffOf, List.head?_cons, Option.map_some, decide_eq_true_eq, Option.mem_def, Option.some.injEq,
      exists_eq_left', SellOrder.Resumes, floorMovedLower_eq_false]
    rw [and_assoc, eq_comm]

/-- A confirmed close, by what the clock and the backoff say. -/
structure Checked (s : Slot) (g : Grounds) (order : SellOrder) (clock : ℚ) (start : CloseStart) : Prop where
  read : clock = g.clock
  waits : start = .backingOff ↔ s.backingOff clock order.trigger (some order.floor) = true
  goes : start ≠ .backingOff → start = g.start

variable {s s' : Slot} {g : Grounds} {exit : ExitSection} {held : HeldPosition} {d : MarkDecision}
  {order : SellOrder} {clock : ℚ} {start : CloseStart}

theorem start_ne_backingOff (g : Grounds) : g.start ≠ .backingOff := by
  unfold Grounds.start
  split_ifs <;> exact CloseStart.noConfusion

theorem Checked.alike (h : Checked s' g order clock start) (halike : s.Alike s') : Checked s g order clock start := by
  refine ⟨h.read, ?_, h.goes⟩
  rw [h.waits]
  have hbackoff : ∀ s : Slot, s.state.bind PositionState.backoff = s.marks.backoff := by
    intro s
    unfold Slot.marks Slot.position
    cases s.state <;> rfl
  unfold Slot.backingOff
  rw [hbackoff s, hbackoff s', halike.1]

theorem outcome_not_close {decision : Option MarkDecision} (h : ∀ d ∈ decision, d.out.payload = none) :
    g.outcome decision ≠ .close order clock start := by
  unfold Grounds.outcome
  cases decision with
  | none => exact fun h => by cases h
  | some d =>
    dsimp only
    rw [h d rfl]
    dsimp only
    split_ifs <;> exact fun h => by cases h

theorem actOutcome_checked (h : s.actOutcome g d = .close order clock start) : Checked s g order clock start := by
  unfold Slot.actOutcome at h
  cases hpayload : d.out.payload with
  | none =>
    rw [hpayload] at h
    exact absurd h (outcome_not_close fun x hx => Option.some.inj hx ▸ hpayload)
  | some close =>
    rw [hpayload] at h
    dsimp only at h
    split_ifs at h with hback
    · cases h
      exact ⟨rfl, iff_of_true rfl hback, fun hne => absurd rfl hne⟩
    · unfold Grounds.outcome at h
      simp only [hpayload, ExitOutcome.close.injEq] at h
      obtain ⟨rfl, rfl, rfl⟩ := h
      exact ⟨rfl, iff_of_false (start_ne_backingOff g) hback, fun _ => rfl⟩

theorem evaluateOutcome_checked {sight : Sight}
    (h : s.evaluateOutcome exit held g sight = some (.close order clock start)) : Checked s g order clock start := by
  unfold Slot.evaluateOutcome at h
  by_cases hdust : isDustQty held.qty = true
  · rw [if_pos hdust] at h
    cases h
  rw [if_neg hdust] at h
  cases hc : sight.cached with
  | none => simp [hc] at h
  | some c =>
    rw [hc] at h
    dsimp only at h
    by_cases hbids : c.fetched.book.bids = []
    · rw [if_pos hbids] at h
      cases h
    rw [if_neg hbids] at h
    have halike := decide_alike s exit held c.fetched.book (some c.fetchedAt) sight.now
    rcases hd : s.decide exit held c.fetched.book (some c.fetchedAt) sight.now with ⟨decision, s'⟩
    rw [hd] at h halike
    cases decision with
    | none => cases h
    | some d =>
      dsimp only at h
      split_ifs at h with hnone
      · refine absurd (Option.some.inj h) (outcome_not_close fun x hx => ?_)
        rw [← Option.some.inj hx]
        exact Option.isNone_iff_eq_none.mp hnone
      · exact (actOutcome_checked (Option.some.inj h)).alike halike

theorem confirmOutcome_checked {r : Refetched} (h : s.confirmOutcome exit held g d r = .close order clock start) :
    Checked s g order clock start := by
  have halike : s.Alike (s.confirmClose exit held d r).2 := by
    unfold Slot.confirmClose
    split
    · exact ⟨rfl, rfl⟩
    · exact ⟨rfl, rfl⟩
    · exact decide_alike s exit held _ _ _
  unfold Slot.confirmOutcome at h
  rcases hconfirm : s.confirmClose exit held d r with ⟨verdict, s'⟩
  rw [hconfirm] at h halike
  cases verdict with
  | error reason => cases h
  | ok d' => exact (actOutcome_checked h).alike halike

theorem step_tick {m m' : ExitMonitor} {e : ExitEvent} (h : m.step e = some m') : m'.tick = m.tick := by
  cases step_stepped h with
  | evaluate => unfold ExitMonitor.advance; split <;> rfl
  | refetched => unfold ExitMonitor.advance; split <;> rfl
  | observe => unfold ExitMonitor.observeBook; split <;> rfl
  | _ => rfl

theorem tick_run {exit : ExitSection} {live : LiveState} {snapshots : Option (List OrderBookSnapshot)} {tick : ℚ}
    {es : List ExitEvent} {w : WatchedExits}
    (run : Run (fun w e w' => w.step e = some w') (WatchedExits.boot exit live snapshots tick) es w) :
    w.monitor.tick = tick := by
  refine @Run.invariant _ _ _ _ _ _ (fun w : WatchedExits => w.monitor.tick = tick) (fun w e w' hw hstep => ?_) run rfl
  obtain ⟨m', hm', rfl⟩ := Option.map_eq_some_iff.mp hstep
  exact (step_tick hm').trans hw

/-- What an event with an outcome leaves of the position's marks. -/
theorem outcome_marks {w w' : WatchedExits} {e : ExitEvent} {o : ExitOutcome} (h : w.Keeps)
    (hstep : w.step e = some w') (ho : w.monitor.outcome e = some (held, o)) :
    held ∈ w.monitor.phase.pending ∧
      (w'.monitor.slot held.positionId).marks = o.mark w.monitor.tick (w.monitor.slot held.positionId).marks := by
  obtain ⟨m', hm', rfl⟩ := Option.map_eq_some_iff.mp hstep
  have hadvance : ∀ (ts : ℚ) (rest : List HeldPosition) (out : Next × Slot),
      ((w.monitor.advance ts held rest out).slot held.positionId).marks = out.2.marks := by
    intro ts rest out
    rw [advance_slot, setSlot_slot]
  have hcleared : held ∈ w.monitor.phase.pending → w.monitor.phase.selling? = some held.positionId →
      (w.monitor.slot held.positionId).marks.holdReason = none := by
    intro hmem hselling
    have hmarked := h.marked hmem
    unfold WatchedExits.Marked at hmarked
    rw [hmarked, if_pos hselling]
  cases step_stepped hm' with
  | @evaluate sight clock ts held' rest hphase hreads =>
    simp only [ExitMonitor.outcome, hphase, Option.map_eq_some_iff, Prod.mk.injEq] at ho
    obtain ⟨o', ho', rfl, rfl⟩ := ho
    exact ⟨hphase ▸ List.mem_cons_self, (hadvance ts rest _).trans (evaluate_effect _ ho').1.marks⟩
  | @refetched r clock ts held' d rest hphase hreads =>
    simp only [ExitMonitor.outcome, hphase, Option.some.injEq, Prod.mk.injEq] at ho
    obtain ⟨rfl, rfl⟩ := ho
    exact ⟨hphase ▸ List.mem_cons_self, (hadvance ts rest _).trans (confirm_effect _ _ d).1.marks⟩
  | @raised clock outage ts held' order exc rest hphase =>
    simp only [ExitMonitor.outcome, hphase, Option.some.injEq, Prod.mk.injEq] at ho
    obtain ⟨rfl, rfl⟩ := ho
    have hmem : held' ∈ w.monitor.phase.pending := hphase ▸ List.mem_cons_self
    refine ⟨hmem, ?_⟩
    show (w.monitor.slot held'.positionId).marks = { (w.monitor.slot held'.positionId).marks with holdReason := none }
    rw [← hcleared hmem (hphase ▸ rfl)]
  | @finish clock outage ts held' order r rest hphase =>
    simp only [ExitMonitor.outcome, hphase, Option.some.injEq, Prod.mk.injEq] at ho
    obtain ⟨rfl, rfl⟩ := ho
    have hmem : held' ∈ w.monitor.phase.pending := hphase ▸ List.mem_cons_self
    refine ⟨hmem, ?_⟩
    unfold ExitMonitor.finishSell
    dsimp only
    show (Slot.marks (({ w.monitor with
      closing := Registry.discard held'.positionId w.monitor.closing } : ExitMonitor).setSlot _ _ |>.slot _)) = _
    rw [setSlot_slot]
    exact (finishClose_effect _ (hcleared hmem (hphase ▸ rfl))).marks
  | _ => simp [ExitMonitor.outcome] at ho

/-- A confirmed close, by the state it is met in and the phase it leads to. -/
theorem close_step {m m' : ExitMonitor} {e : ExitEvent} (hstep : m.step e = some m')
    (ho : m.outcome e = some (held, .close order clock start)) :
    Checked (m.slot held.positionId) (m.grounds held.positionId clock) order clock start ∧
      (start = .placed → ∃ ts rest, m'.phase = .selling ts held order rest) ∧
      (start ≠ .placed → ∃ ts rest, m'.phase = .sweeping ts rest) := by
  have hadvance : ∀ (ts : ℚ) (rest : List HeldPosition) (out : Next × Slot),
      (ExitOutcome.close order clock start).Leads out.1 →
      (start = .placed → ∃ ts' rest', (m.advance ts held rest out).phase = .selling ts' held order rest') ∧
        (start ≠ .placed → ∃ ts' rest', (m.advance ts held rest out).phase = .sweeping ts' rest') := by
    intro ts rest out hleads
    refine ⟨fun hplaced => ⟨ts, rest, ?_⟩, fun hne => ⟨ts, rest, ?_⟩⟩
    · subst hplaced
      simp [ExitMonitor.advance, hleads.1 order clock rfl]
    · obtain ⟨blocked, hdone⟩ := hleads.2 (by cases start <;> first | rfl | exact absurd rfl hne)
      simp [ExitMonitor.advance, hdone]
  cases step_stepped hstep with
  | @evaluate sight clock' ts held' rest hphase hreads =>
    simp only [ExitMonitor.outcome, hphase, Option.map_eq_some_iff, Prod.mk.injEq] at ho
    obtain ⟨o', ho', rfl, rfl⟩ := ho
    have hchecked := evaluateOutcome_checked ho'
    obtain rfl : clock = clock' := hchecked.read
    exact ⟨hchecked, hadvance ts rest _ (evaluate_effect m.tick ho').2⟩
  | @refetched r clock' ts held' d rest hphase hreads =>
    simp only [ExitMonitor.outcome, hphase, Option.some.injEq, Prod.mk.injEq] at ho
    obtain ⟨rfl, ho'⟩ := ho
    have hchecked := confirmOutcome_checked ho'
    obtain rfl : clock = clock' := hchecked.read
    have hleads := (@confirm_effect m.tick held' ts (m.grounds held'.positionId clock) m.exit r
      (m.slot held'.positionId) d).2
    rw [ho'] at hleads
    exact ⟨hchecked, hadvance ts rest _ hleads⟩
  | @raised clock' outage ts held' order' exc rest hphase =>
    simp [ExitMonitor.outcome, hphase] at ho
  | @finish clock' outage ts held' order' r rest hphase =>
    simp only [ExitMonitor.outcome, hphase, Option.some.injEq, Prod.mk.injEq, ExecResult.outcome] at ho
    split_ifs at ho <;> cases ho.2
  | _ => simp [ExitMonitor.outcome] at ho

theorem advance_selling {m : ExitMonitor} {ts ts' : ℚ} {held' : HeldPosition} {rest rest' : List HeldPosition}
    {out : Next × Slot} {o : ExitOutcome} (hleads : o.Leads out.1)
    (h : (m.advance ts held rest out).phase = .selling ts' held' order rest') :
    held' = held ∧ ∃ clock start, o = .close order clock start := by
  cases hplaced : o.isPlaced with
  | false =>
    obtain ⟨blocked, hdone⟩ := hleads.2 hplaced
    simp [ExitMonitor.advance, hdone] at h
  | true =>
    obtain ⟨order', clock, rfl⟩ := isPlaced_iff.mp hplaced
    simp only [ExitMonitor.advance, hleads.1 order' clock rfl, TickPhase.selling.injEq] at h
    obtain ⟨-, rfl, rfl, -⟩ := h
    exact ⟨rfl, clock, .placed, rfl⟩

/-- A sell is under way as before, or a confirmed close has placed it. -/
theorem selling_step {m m' : ExitMonitor} {e : ExitEvent} {ts : ℚ} {rest : List HeldPosition}
    (hstep : m.step e = some m') (h : m'.phase = .selling ts held order rest) :
    m.phase = .selling ts held order rest ∨
      ∃ clock start, m.outcome e = some (held, .close order clock start) := by
  cases step_stepped hstep with
  | @evaluate sight clock ts' held' rest' hphase hreads =>
    refine .inr ?_
    cases ho : (m.slot held'.positionId).evaluateOutcome m.exit held' (m.grounds held'.positionId clock) sight with
    | none =>
      obtain ⟨-, d, age, hnext⟩ := @evaluate_refetches _ held' ts' _ _ _ ho
      simp [ExitMonitor.advance, hnext] at h
    | some o =>
      obtain ⟨rfl, clock', start, rfl⟩ := advance_selling (evaluate_effect m.tick ho).2 h
      exact ⟨clock', start, by simp [ExitMonitor.outcome, hphase, ho]⟩
  | @refetched r clock ts' held' d rest' hphase hreads =>
    obtain ⟨rfl, clock', start, ho⟩ := advance_selling (confirm_effect m.tick _ d).2 h
    exact .inr ⟨clock', start, by simp [ExitMonitor.outcome, hphase, ho]⟩
  | observe =>
    unfold ExitMonitor.observeBook at h
    split at h <;> exact .inl h
  | replaceExit => exact .inl h
  | ledger => exact .inl h
  | trade => exact .inl h
  | mark => exact .inl h
  | clear => exact .inl h
  | _ => cases h

theorem slot_backoff (m : ExitMonitor) (id : ℕ) :
    (m.states id).bind PositionState.backoff = (m.slot id).marks.backoff := by
  unfold Slot.marks Slot.position ExitMonitor.slot
  cases m.states id <;> rfl

theorem WatchedExits.Keeps.backoff {w : WatchedExits} (h : w.Keeps) (hmem : held ∈ w.monitor.phase.pending) :
    (w.monitor.slot held.positionId).marks.backoff =
      backoffOf w.monitor.tick (failures (w.history held.positionId)) := by
  have hmarked := h.marked hmem
  unfold WatchedExits.Marked at hmarked
  rw [hmarked, ← marksOf_backoff]
  split_ifs <;> rfl

theorem extended_history {w w' : WatchedExits} {e : ExitEvent} {o : ExitOutcome} (hstep : w.step e = some w')
    (ho : w.monitor.outcome e = some (held, o)) (hplaced : o.isPlaced = false) :
    ∃ rows, w'.history held.positionId = ⟨o, rows⟩ :: w.history held.positionId := by
  obtain ⟨m', hm', rfl⟩ := Option.map_eq_some_iff.mp hstep
  refine ⟨m'.log.drop w.monitor.log.length, ?_⟩
  simp only [WatchedExits.extended, ho, hplaced, Bool.false_eq_true, if_false, Function.update_self]

/-- What one event does about the backoff of a position. -/
structure BacksOff (tick : ℚ) (w w' : WatchedExits) (e : ExitEvent) : Prop where
  /-- The `k`-th failure in a row sets its delay; one that resumes none is the first of a row. -/
  failed : ∀ held order clock key, w.monitor.outcome e = some (held, .failed order clock key) →
    ∃ fs, fs = ⟨order, clock⟩ :: failures (w.history held.positionId) ∧
      failures (w'.history held.positionId) = fs ∧
      (w'.monitor.states held.positionId).bind PositionState.backoff =
        some ⟨order.trigger, min (tick * 2 ^ (streak fs - 1)) 120,
          clock + min (tick * 2 ^ (streak fs - 1)) 120, some order.floor⟩ ∧
      ((∀ f ∈ (failures (w.history held.positionId)).head?, ¬ order.Resumes f) → streak fs = 1)
  /-- A confirmed close that the delay holds back is not attempted. -/
  waits : ∀ held order clock start, w.monitor.outcome e = some (held, .close order clock start) →
    Waits tick (failures (w.history held.positionId)) order clock →
    ∃ ts rest, w'.monitor.phase = .sweeping ts rest
  /-- Any other is attempted at once. -/
  goes : ∀ held order clock start, w.monitor.outcome e = some (held, .close order clock start) →
    ¬ Waits tick (failures (w.history held.positionId)) order clock →
    w.monitor.stillOpen held.positionId = true → held.positionId ∉ w.monitor.closing →
    ∃ ts rest, w'.monitor.phase = .selling ts held order rest
  /-- Nothing else attempts one. -/
  only : ∀ ts held order rest, w'.monitor.phase = .selling ts held order rest →
    w.monitor.phase = .selling ts held order rest ∨
      ∃ clock start, w.monitor.outcome e = some (held, .close order clock start)
  removed : ∀ held, w.monitor.outcome e = some (held, .filled) ∨ w.monitor.outcome e = some (held, .within) →
    (w'.monitor.states held.positionId).bind PositionState.backoff = none

/-- Over every run the failures in a row at the head of a position's history decide which
closes wait. -/
theorem close_backoff {exit : ExitSection} {live : LiveState} (hids : (live.db.positions.map PositionRow.id).Nodup)
    {snapshots : Option (List OrderBookSnapshot)} {tick : ℚ} {es : List ExitEvent} {w w' : WatchedExits} {e : ExitEvent}
    (run : Run (fun w e w' => w.step e = some w') (WatchedExits.boot exit live snapshots tick) es w)
    (hstep : w.step e = some w') : BacksOff tick w w' e := by
  have hkeeps := keeps_run hids run
  have htick := tick_run run
  obtain ⟨m', hm', hw'⟩ := Option.map_eq_some_iff.mp hstep
  have hphase : w'.monitor = m' := by rw [← hw']
  refine ⟨fun held order clock key ho => ?_, fun held order clock start ho hwaits => ?_,
    fun held order clock start ho hgoes hopen hclosing => ?_, fun ts held order rest hselling => ?_, fun held ho => ?_⟩
  · obtain ⟨hmem, hmarks⟩ := outcome_marks hkeeps hstep ho
    obtain ⟨rows, hhistory⟩ := extended_history hstep ho rfl
    have hfs : failures (w'.history held.positionId) = ⟨order, clock⟩ :: failures (w.history held.positionId) := by
      rw [hhistory]
      rfl
    refine ⟨_, rfl, hfs, ?_, fun hnone => ?_⟩
    · rw [slot_backoff, hmarks]
      show some (nextBackoff _ _ order clock) = _
      rw [hkeeps.backoff hmem, nextBackoff, nextDelay_eq _ order clock, htick]
      rfl
    · cases hprev : failures (w.history held.positionId) with
      | nil => rfl
      | cons prev rest =>
        rw [hprev] at hnone
        exact if_neg (hnone prev rfl)
  · obtain ⟨hchecked, -, hwait⟩ := close_step hm' ho
    obtain ⟨hmem, -⟩ := outcome_marks hkeeps hstep ho
    rw [hphase]
    refine hwait ?_
    rw [hchecked.waits.mpr ((backingOff_iff (hkeeps.backoff hmem) order clock).mpr (htick ▸ hwaits))]
    exact CloseStart.noConfusion
  · obtain ⟨hchecked, hplace, -⟩ := close_step hm' ho
    obtain ⟨hmem, -⟩ := outcome_marks hkeeps hstep ho
    rw [hphase]
    refine hplace ?_
    have hgo := hchecked.goes fun hback => hgoes
      (htick ▸ (backingOff_iff (hkeeps.backoff hmem) order clock).mp (hchecked.waits.mp hback))
    rw [hgo]
    simp [Grounds.start, ExitMonitor.grounds, hopen, hclosing]
  · rw [hphase] at hselling
    exact selling_step hm' hselling
  · rw [slot_backoff]
    rcases ho with ho | ho
    · rw [(outcome_marks hkeeps hstep ho).2]
      rfl
    · rw [(outcome_marks hkeeps hstep ho).2]
      rfl

def backoffExit : ExitSection := .v1 { defaultStop with takeProfitEnabled := true }

/-- A sell of the sample position that finds no book. -/
def booklessSell (t price : ℚ) (trigger : Trigger) : SellRequest :=
  .paper { catalog := ⟨fun _ => none, fun _ => none⟩, gone := fun _ => false, usable := fun _ => true,
           position := (openRow 1 sampleOpen).toHeld, closeReason := trigger.closeReason, ts := t,
           trigger := some trigger.name, floorPrice := some price }

def sellTick (t price : ℚ) (trigger : Trigger) : List ExitEvent :=
  [.readOpens t, .sweep, .evaluate (bidSight price t) t, .execute (booklessSell t price trigger)]

def unfilledTick (t price : ℚ) (trigger : Trigger) : List ExitEvent :=
  sellTick t price trigger ++ [.finish t none, .tickDone]

def backoffStart : WatchedExits := .boot backoffExit reportLive none 10

theorem reportLive_ids : (reportLive.db.positions.map PositionRow.id).Nodup := by decide

theorem close_backoff_sample :
    ∃ w w', Run (fun w e w' => WatchedExits.step w e = some w') backoffStart
        (unfilledTick 0 (3 / 10) .stopLoss ++ sellTick 10 (3 / 10) .stopLoss) w ∧
      BacksOff 10 w w' (.finish 10 none) ∧
      (w'.monitor.states 1).bind PositionState.backoff = some ⟨.stopLoss, 20, 30, some (3 / 10)⟩ := by
  have hread : (((unfilledTick 0 (3 / 10) .stopLoss ++ sellTick 10 (3 / 10) .stopLoss).foldlM WatchedExits.step
      backoffStart).bind fun w => (w.step (.finish 10 none)).map fun w' =>
        (w'.monitor.states 1).bind PositionState.backoff) =
      some (some ⟨.stopLoss, 20, 30, some (3 / 10)⟩) := by
    decide +kernel
  obtain ⟨w, hw, hread⟩ := Option.bind_eq_some_iff.mp hread
  obtain ⟨w', hw', hread⟩ := Option.map_eq_some_iff.mp hread
  have hrun := run_foldlM _ hw
  exact ⟨w, w', hrun, close_backoff reportLive_ids hrun hw', hread⟩

/-- A close resumes a failure, the newest or an earlier one, before its delay has passed. -/
def early (tick : ℚ) (order : SellOrder) (clock : ℚ) : List FailedClose → Bool
  | [] => false
  | f :: rest =>
    (order.Resumes f ∧ clock < f.clock + delayOf tick (f :: rest)) || early tick order clock rest

def WatchedExits.placesEarly (w : WatchedExits) (e : ExitEvent) : Bool :=
  match w.monitor.outcome e with
  | some (held, .close order clock .placed) =>
    early w.monitor.tick order clock (failures (w.history held.positionId))
  | _ => false

def flippedRun : List ExitEvent :=
  unfilledTick 0 (3 / 10) .stopLoss ++ unfilledTick 10 (3 / 10) .stopLoss ++ unfilledTick 30 (3 / 10) .stopLoss ++
    unfilledTick 40 (11 / 20) .takeProfit ++ [.readOpens 50, .sweep]

/-- A stop that has failed three times is due again at 70. A take-profit that fails in
between leaves its own backoff, and the stop is placed at 50. -/
theorem flip_retries_early :
    ∃ w : WatchedExits, Run (fun w e w' => WatchedExits.step w e = some w') backoffStart flippedRun w ∧
      (w.step (.evaluate (bidSight (3 / 10) 50) 50)).isSome = true ∧
      w.placesEarly (.evaluate (bidSight (3 / 10) 50) 50) = true := by
  have hread : ((flippedRun.foldlM WatchedExits.step backoffStart).map fun w =>
      ((w.step (.evaluate (bidSight (3 / 10) 50) 50)).isSome,
        w.placesEarly (.evaluate (bidSight (3 / 10) 50) 50))) = some (true, true) := by
    decide +kernel
  obtain ⟨w, hw, hread⟩ := Option.map_eq_some_iff.mp hread
  obtain ⟨hstep, hearly⟩ := Prod.mk.inj hread
  exact ⟨w, run_foldlM _ hw, hstep, hearly⟩

end OpenPoly
