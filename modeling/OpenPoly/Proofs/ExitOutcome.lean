import OpenPoly.Proofs.Custody
import OpenPoly.Proofs.ExitRun
import OpenPoly.Proofs.Reports
import OpenPoly.Spec.ExitOutcome

/-! What the monitor remembers of a position between two evaluations is what its
evaluations came to: the marks an outcome leaves, and the rows it may write. -/

namespace OpenPoly

/-- What is kept to write a row once and to hold a close back. -/
structure SlotMarks where
  holdReason : Option HoldReason := none
  errorKey : Option CloseFailure := none
  backoff : Option Backoff := none
  dust : Bool := false

def Slot.marks (s : Slot) : SlotMarks :=
  ⟨s.position.holdReason, s.position.errorKey, s.position.backoff, s.position.dust⟩

def nextBackoff (tick : ℚ) (prev : Option Backoff) (order : SellOrder) (clock : ℚ) : Backoff :=
  let delay := nextDelay prev order.trigger (some order.floor) tick
  ⟨order.trigger, delay, clock + delay, some order.floor⟩

def ExitOutcome.mark (tick : ℚ) : ExitOutcome → SlotMarks → SlotMarks
  | .dust, m => { m with dust := true }
  | .held reason, m => { m with holdReason := some reason }
  | .noBids, m => m
  | .within, m => { m with holdReason := none, errorKey := none, backoff := none }
  | .close _ _ .backingOff, m => m
  | .close _ _ _, m => { m with holdReason := none }
  | .filled, m => { m with holdReason := none, errorKey := none, backoff := none }
  | .failed order clock key, m =>
    { m with
      holdReason := none
      errorKey := some key
      backoff := some (nextBackoff tick m.backoff order clock) }
  | .raised _, m => { m with holdReason := none }

/-- What tells the row of one reason from that of another. -/
structure RowKey where
  verdict : ExitVerdict
  reason : Option ExitReason := none
  error : Option ExitError := none
  deriving DecidableEq

def ExitDecision.key (d : ExitDecision) : RowKey := ⟨d.verdict, d.reason, d.error⟩

/-- The row an outcome stands for. -/
def ExitOutcome.key? : ExitOutcome → Option RowKey
  | .dust => some { verdict := .skip, reason := some .dustRemainder }
  | .held reason => some { verdict := .skip, reason := some (.hold reason) }
  | .close _ _ .noLongerOpen => some { verdict := .skip, reason := some .positionNoLongerOpen }
  | .close _ _ .inFlight => some { verdict := .skip, reason := some .exitInFlight }
  | .failed _ _ .restingOrderPending => some { verdict := .skip, reason := some .restingOrderPending }
  | .failed _ _ (.notFilled reason) => some { verdict := .error, error := some (.notFilled reason) }
  | .raised exc => some { verdict := .error, error := some (.raised exc) }
  | _ => none

/-- The row is not one the marks say is written. -/
def ExitOutcome.writes : ExitOutcome → SlotMarks → Bool
  | .dust, m => !m.dust
  | .held reason, m => m.holdReason ≠ some reason
  | .failed _ _ key, m => m.errorKey ≠ some key
  | _, _ => true

/-- Rows an outcome may write on these marks: one at most, and of its own key. -/
structure Writes (o : ExitOutcome) (m : SlotMarks) (positionId : ℕ) (rows : List ExitDecision) : Prop where
  one : rows.length ≤ 1
  row : ∀ d ∈ rows, d.verdict ≠ .ok →
    o.key? = some d.key ∧ o.writes m = true ∧ d.positionId = positionId

theorem writes_none (o : ExitOutcome) (m : SlotMarks) (positionId : ℕ) : Writes o m positionId [] :=
  ⟨by simp, by simp⟩

theorem writes_one {o : ExitOutcome} {m : SlotMarks} {positionId : ℕ} {d : ExitDecision}
    (h : d.verdict ≠ .ok → o.key? = some d.key ∧ o.writes m = true ∧ d.positionId = positionId) :
    Writes o m positionId [d] := by
  refine ⟨by simp, fun x hx => ?_⟩
  obtain rfl := List.mem_singleton.mp hx
  exact h

/-- What an outcome makes of the slot. -/
structure OutcomeEffect (tick : ℚ) (o : ExitOutcome) (positionId : ℕ) (s s' : Slot) : Prop where
  marks : s'.marks = o.mark tick s.marks
  log : ∃ rows, s'.log = s.log ++ rows ∧ Writes o s.marks positionId rows

def Slot.Alike (s s' : Slot) : Prop := s'.marks = s.marks ∧ s'.log = s.log

variable {tick : ℚ} {o : ExitOutcome} {positionId : ℕ} {s s' s'' : Slot}

theorem OutcomeEffect.after (h : OutcomeEffect tick o positionId s' s'') (halike : s.Alike s') :
    OutcomeEffect tick o positionId s s'' :=
  ⟨halike.1 ▸ h.marks, halike.1 ▸ halike.2 ▸ h.log⟩

theorem effect_quiet (hmarks : s'.marks = o.mark tick s.marks) (hlog : s'.log = s.log) :
    OutcomeEffect tick o positionId s s' :=
  ⟨hmarks, [], by simp [hlog], writes_none _ _ _⟩

theorem map_marks (s : Slot) {f : PositionState → PositionState} (hf : (f {}) = {}) :
    ({ s with state := s.state.map f } : Slot).marks =
      ⟨(f s.position).holdReason, (f s.position).errorKey, (f s.position).backoff, (f s.position).dust⟩ := by
  unfold Slot.marks
  rw [map_position s hf]

theorem decide_alike (s : Slot) (exit : ExitSection) (held : HeldPosition) (book : OrderBook)
    (stamp : Option ℚ) (now : ℚ) : s.Alike (s.decide exit held book stamp now).2 := by
  unfold Slot.decide
  split
  · exact ⟨rfl, rfl⟩
  · rename_i price thin _
    cases thin <;> exact ⟨rfl, rfl⟩

theorem track_alike (s : Slot) (decision : Option MarkDecision) : s.Alike (s.trackThinStreak decision) := by
  refine ⟨?_, trackThinStreak_log s decision⟩
  unfold Slot.trackThinStreak
  split
  · dsimp only
    split_ifs <;> rfl
  · exact map_marks s rfl

theorem clearHolds_marks (s : Slot) : s.clearHolds.marks = { s.marks with holdReason := none } :=
  map_marks s rfl

theorem clearBackoff_marks (s : Slot) :
    s.clearBackoff.marks = { s.marks with backoff := none, errorKey := none } := map_marks s rfl

theorem dropPeak_marks (s : Slot) : s.dropPeak.marks = s.marks := map_marks s rfl

theorem holdOnce_effect (s : Slot) (held : HeldPosition) (ts : ℚ) (reason : HoldReason) :
    OutcomeEffect tick (.held reason) held.positionId s (s.holdOnce held ts reason) := by
  unfold Slot.holdOnce
  split_ifs with h
  · refine effect_quiet ?_ rfl
    show s.marks = { s.marks with holdReason := some reason }
    rw [← h]
    rfl
  · exact ⟨rfl, [_], rfl, writes_one fun _ => ⟨rfl, decide_eq_true h, rfl⟩⟩

theorem noteDust_effect (s : Slot) (held : HeldPosition) (ts : ℚ) :
    OutcomeEffect tick .dust held.positionId s (s.noteDust held ts) := by
  unfold Slot.noteDust
  cases h : s.position.dust with
  | true =>
    refine effect_quiet ?_ rfl
    show s.marks = { s.marks with dust := true }
    rw [← h]
    rfl
  | false =>
    refine ⟨rfl, [_], rfl, writes_one fun _ => ⟨rfl, ?_, rfl⟩⟩
    show (!s.position.dust) = true
    rw [h]
    rfl

theorem isPlaced_iff {o : ExitOutcome} : o.isPlaced = true ↔ ∃ order clock, o = .close order clock .placed := by
  constructor
  · intro h
    unfold ExitOutcome.isPlaced at h
    split at h
    · exact ⟨_, _, rfl⟩
    · cases h
  · rintro ⟨order, clock, rfl⟩
    rfl

/-- Where the evaluation goes on to, by its outcome. -/
def ExitOutcome.Leads (o : ExitOutcome) (next : Next) : Prop :=
  (∀ order clock, o = .close order clock .placed → next = .sell order) ∧
    (o.isPlaced = false → ∃ blocked, next = .done blocked)

theorem leads_done {o : ExitOutcome} (h : o.isPlaced = false) (blocked : Bool) :
    o.Leads (.done blocked) := by
  refine ⟨fun order clock ho => ?_, fun _ => ⟨blocked, rfl⟩⟩
  rw [ho] at h
  cases h

theorem leads_sell (order : SellOrder) (clock : ℚ) :
    (ExitOutcome.close order clock .placed).Leads (.sell order) := by
  refine ⟨fun order' clock' ho => ?_, fun h => by cases h⟩
  obtain ⟨rfl, -⟩ := ExitOutcome.close.inj ho
  rfl

variable {held : HeldPosition} {ts : ℚ} {g : Grounds} {exit : ExitSection} {d : MarkDecision}

theorem conclude_effect (s : Slot) (decision : Option MarkDecision) :
    OutcomeEffect tick (g.outcome decision) held.positionId s (s.conclude held ts g decision).2 ∧
      (g.outcome decision).Leads (s.conclude held ts g decision).1 := by
  have hskip : ∀ (s : Slot) (d : MarkDecision) (close : CloseIntent) (start : CloseStart) (row : ExitDecision),
      start ≠ .backingOff → (ExitOutcome.close (d.order close) g.clock start).key? = some row.key →
      row.positionId = held.positionId →
      OutcomeEffect tick (.close (d.order close) g.clock start) held.positionId s (s.clearHolds.write row) := by
    intro s d close start row hstart hkey hid
    refine ⟨?_, [row], rfl, writes_one fun _ => ⟨hkey, by cases start <;> rfl, hid⟩⟩
    have hmarks := clearHolds_marks s
    cases start with
    | backingOff => exact absurd rfl hstart
    | noLongerOpen => exact hmarks
    | inFlight => exact hmarks
    | placed => exact hmarks
  have halike := track_alike s decision
  unfold Slot.conclude Grounds.outcome
  cases decision with
  | none => exact ⟨(holdOnce_effect _ held ts _).after halike, leads_done rfl true⟩
  | some d =>
    dsimp only
    cases d.out.payload with
    | none =>
      dsimp only
      split_ifs
      · exact ⟨(holdOnce_effect _ held ts _).after halike, leads_done rfl true⟩
      · have hquiet : OutcomeEffect tick .within held.positionId (s.trackThinStreak (some d))
            (s.trackThinStreak (some d)).clearHolds.clearBackoff := by
          refine effect_quiet ?_ rfl
          rw [clearBackoff_marks, clearHolds_marks]
          rfl
        exact ⟨hquiet.after halike, leads_done rfl false⟩
    | some close =>
      dsimp only
      unfold Grounds.start
      split_ifs
      · exact ⟨(hskip _ d close .noLongerOpen _ (by simp) rfl rfl).after halike, leads_done rfl false⟩
      · exact ⟨(hskip _ d close .inFlight _ (by simp) rfl rfl).after halike, leads_done rfl false⟩
      · have hquiet : OutcomeEffect tick (.close (d.order close) g.clock .placed) held.positionId
            (s.trackThinStreak (some d)) (s.trackThinStreak (some d)).clearHolds :=
          effect_quiet (clearHolds_marks _) rfl
        exact ⟨hquiet.after halike, leads_sell _ _⟩

theorem act_effect (s : Slot) (d : MarkDecision) :
    OutcomeEffect tick (s.actOutcome g d) held.positionId s (s.act held ts g d).2 ∧
      (s.actOutcome g d).Leads (s.act held ts g d).1 := by
  unfold Slot.act Slot.actOutcome MarkDecision.heldBack
  cases hpayload : d.out.payload with
  | none => exact conclude_effect s (some d)
  | some close =>
    dsimp only [Option.any_some]
    split_ifs
    · exact ⟨effect_quiet rfl rfl, leads_done rfl true⟩
    · exact conclude_effect s (some d)

variable (tick) in
theorem evaluate_effect {sight : Sight} (h : s.evaluateOutcome exit held g sight = some o) :
    OutcomeEffect tick o held.positionId s (s.evaluate exit held ts g sight).2 ∧
      o.Leads (s.evaluate exit held ts g sight).1 := by
  unfold Slot.evaluateOutcome at h
  unfold Slot.evaluate
  split_ifs at h ⊢ with hdust
  · obtain rfl := Option.some.inj h
    exact ⟨noteDust_effect s held ts, leads_done rfl false⟩
  cases hc : sight.cached with
  | none =>
    rw [hc] at h
    obtain rfl := Option.some.inj h
    exact ⟨(holdOnce_effect _ held ts _).after ⟨rfl, rfl⟩, leads_done rfl true⟩
  | some c =>
    rw [hc] at h
    dsimp only at h ⊢
    by_cases hbids : c.fetched.book.bids = []
    · rw [if_pos hbids] at h ⊢
      obtain rfl := Option.some.inj h
      exact ⟨effect_quiet rfl rfl, leads_done rfl true⟩
    rw [if_neg hbids] at h ⊢
    have halike := decide_alike s exit held c.fetched.book (some c.fetchedAt) sight.now
    rcases hd : s.decide exit held c.fetched.book (some c.fetchedAt) sight.now with ⟨decision, s'⟩
    rw [hd] at h halike
    cases decision with
    | none =>
      obtain rfl := Option.some.inj h
      exact (conclude_effect s' none).imp_left fun heffect => heffect.after halike
    | some d =>
      dsimp only at h ⊢
      split_ifs at h ⊢
      · obtain rfl := Option.some.inj h
        exact (conclude_effect s' (some d)).imp_left fun heffect => heffect.after halike
      · obtain rfl := Option.some.inj h
        exact (act_effect s' d).imp_left fun heffect => heffect.after halike

/-- Before a re-fetch nothing is marked or written. -/
theorem evaluate_refetches {sight : Sight} (h : s.evaluateOutcome exit held g sight = none) :
    s.Alike (s.evaluate exit held ts g sight).2 ∧
      ∃ d age, (s.evaluate exit held ts g sight).1 = .refetch d age := by
  unfold Slot.evaluateOutcome at h
  unfold Slot.evaluate
  split_ifs at h ⊢ with hdust
  cases hc : sight.cached with
  | none => simp [hc] at h
  | some c =>
    rw [hc] at h
    dsimp only at h ⊢
    by_cases hbids : c.fetched.book.bids = []
    · rw [if_pos hbids] at h
      cases h
    rw [if_neg hbids] at h ⊢
    have halike := decide_alike s exit held c.fetched.book (some c.fetchedAt) sight.now
    rcases hd : s.decide exit held c.fetched.book (some c.fetchedAt) sight.now with ⟨decision, s'⟩
    rw [hd] at h halike
    cases decision with
    | none => simp at h
    | some d =>
      dsimp only at h ⊢
      split_ifs at h ⊢
      exact ⟨halike, _, _, rfl⟩

variable (tick) in
theorem confirm_effect {r : Refetched} (s : Slot) (d : MarkDecision) :
    OutcomeEffect tick (s.confirmOutcome exit held g d r) held.positionId s (s.confirm exit held ts g d r).2 ∧
      (s.confirmOutcome exit held g d r).Leads (s.confirm exit held ts g d r).1 := by
  have halike : s.Alike (s.confirmClose exit held d r).2 := by
    unfold Slot.confirmClose
    split
    · exact ⟨rfl, rfl⟩
    · exact ⟨rfl, rfl⟩
    · exact decide_alike s exit held _ _ _
  unfold Slot.confirmOutcome Slot.confirm
  rcases hconfirm : s.confirmClose exit held d r with ⟨verdict, s'⟩
  rw [hconfirm] at halike
  cases verdict with
  | error reason => exact ⟨(holdOnce_effect _ held ts _).after halike, leads_done rfl true⟩
  | ok d' => exact (act_effect s' d').imp_left fun heffect => heffect.after halike

/-- A sell that has returned; its position had no hold reason left. -/
theorem finishClose_effect {clock : ℚ} {order : SellOrder} {r : ExecResult} {closed : Bool} {realized : ℚ}
    (s : Slot) (hhold : s.marks.holdReason = none) :
    OutcomeEffect tick (r.outcome order clock) held.positionId s
      (s.finishClose held ts clock order r closed realized tick) := by
  unfold Slot.finishClose ExecResult.outcome
  have hput : s.Alike (s.put { s.position with restingOrderId := r.restingOrderId }) := ⟨rfl, rfl⟩
  generalize s.put { s.position with restingOrderId := r.restingOrderId } = s₁ at hput
  refine OutcomeEffect.after ?_ hput
  have hhold₁ : s₁.marks.holdReason = none := hput.1 ▸ hhold
  cases r.fillPrice with
  | some price =>
    unfold Slot.noteFill
    refine ⟨?_, [_], by cases closed <;> rfl, writes_one fun hok => absurd rfl hok⟩
    have hclear : s₁.clearBackoff.marks = { s₁.marks with holdReason := none, errorKey := none, backoff := none } := by
      rw [clearBackoff_marks, ← hhold₁]
    cases closed with
    | false => exact hclear
    | true => exact (dropPeak_marks _).trans hclear
  | none =>
    unfold Slot.noteFailure
    dsimp only [Option.isSome_none]
    have hfail : ∀ (key : CloseFailure) (row : ExitDecision),
        (ExitOutcome.failed order clock key).key? = some row.key → row.positionId = held.positionId →
        OutcomeEffect tick (.failed order clock key) held.positionId s₁
          ((s₁.recordCloseFailure clock order.trigger (some order.floor) tick).failOnce key row) := by
      intro key row hkey hid
      unfold Slot.failOnce
      split_ifs with hlogged
      · refine effect_quiet ?_ rfl
        have hlogged : s₁.position.errorKey = some key := hlogged
        show (⟨s₁.position.holdReason, s₁.position.errorKey, _, _⟩ : SlotMarks) = _
        rw [hlogged, show s₁.position.holdReason = none from hhold₁]
        rfl
      · refine ⟨?_, [row], rfl, writes_one fun _ => ⟨hkey, decide_eq_true hlogged, hid⟩⟩
        show (⟨s₁.position.holdReason, _, _, _⟩ : SlotMarks) = _
        rw [show s₁.position.holdReason = none from hhold₁]
        rfl
    rw [if_neg Bool.false_ne_true]
    split_ifs with hresting
    · apply hfail
      · rfl
      · rfl
    · apply hfail
      · rfl
      · rfl

end OpenPoly
