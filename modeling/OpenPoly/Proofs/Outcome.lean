import OpenPoly.Proofs.Settle

/-! The name of an answered order's outcome: what it says of the order left on
the book and of the shares filled is what the venue's answers show. -/

namespace OpenPoly

/-- The order may still rest exactly when neither the body nor a cancel nor a
reading says otherwise. -/
theorem settleAnswered_rests (resp : Dict) (side : FillAction) (size : ℚ) (a : SettleAnswers) :
    (settleAnswered resp side size a).2 =
      !((postBody resp side).covers size || knownOff (postBody resp side) size a) := by
  cases hcov : (postBody resp side).covers size with
  | true => rw [settleAnswered_covers a hcov]; rfl
  | false => rw [settleAnswered_short a hcov]; rfl

def saysOffBook : Except ExecResult Fill → Bool
  | .ok fill => !fill.resting
  | .error skip =>
    match skip.skipReason with
    | some .liveCancelFailed => false
    | _ => true

def isCleanMiss : Except ExecResult Fill → Bool
  | .ok _ => false
  | .error skip =>
    match skip.skipReason with
    | some .liveNoMatch => true
    | some .liveUnparseable => true
    | _ => false

/-- The id an outcome hands on as possibly resting. -/
def restingId : Except ExecResult Fill → Option String
  | .ok fill => if fill.resting then fill.orderId else none
  | .error skip => skip.restingOrderId

theorem resolveFill_saysOffBook (resp : Dict) (side : FillAction) (size limitPrice : ℚ)
    (a : SettleAnswers) (estimatePrice : Option (ℚ → ℚ)) :
    saysOffBook (resolveFill resp side size limitPrice a estimatePrice) =
      !(settleAnswered resp side size a).2 := by
  unfold resolveFill resolveFillIn
  cases hs : settleAnswered resp side size a with
  | mk qty resting =>
    by_cases hq : qty.getD 0 = 0
    · simp only [hq, if_true, saysOffBook, ExecResult.skip, noFillReason]
      cases resting with
      | true => rfl
      | false =>
        cases qty.isNone with
        | true => rfl
        | false => cases (postBody resp side).bad size <;> rfl
    · simp only [hq, if_false, saysOffBook]

theorem resolveFill_cleanMiss {resp : Dict} {side : FillAction} {size limitPrice : ℚ}
    {a : SettleAnswers} {estimatePrice : Option (ℚ → ℚ)}
    (h : isCleanMiss (resolveFill resp side size limitPrice a estimatePrice) = true) :
    settleAnswered resp side size a = (some 0, false) := by
  unfold resolveFill resolveFillIn at h
  cases hs : settleAnswered resp side size a with
  | mk qty resting =>
    simp only [hs] at h
    by_cases hq : qty.getD 0 = 0
    · simp only [hq, if_true, isCleanMiss, ExecResult.skip, noFillReason] at h
      cases resting with
      | true => simp at h
      | false =>
        cases qty with
        | none => simp at h
        | some q =>
          have hzero : q = 0 := hq
          rw [hzero]
    · simp [hq, isCleanMiss] at h

theorem resolveFill_restingId (resp : Dict) (side : FillAction) (size limitPrice : ℚ)
    (a : SettleAnswers) (estimatePrice : Option (ℚ → ℚ)) :
    restingId (resolveFill resp side size limitPrice a estimatePrice) =
      if (settleAnswered resp side size a).2 then (postBody resp side).orderId else none := by
  unfold resolveFill resolveFillIn
  cases hs : settleAnswered resp side size a with
  | mk qty resting =>
    by_cases hq : qty.getD 0 = 0
    · simp only [hq, if_true, restingId, ExecResult.skip]
    · simp only [hq, if_false, restingId]

/-- Where the sources leave the quantity unknown, no quantity follows from them. -/
theorem Concluded.unknown {body : OrderResponse} {size : ℚ} {a : SettleAnswers}
    (h : Concluded body size a none) (q : ℚ) : ¬ Concluded body size a (some q) := by
  intro hq
  unfold Concluded at h hq
  by_cases hcov : body.covers size = true
  · simp [hcov] at h
  · rw [if_neg hcov] at h hq
    cases hcount : (finalCounts size (readsOf body size a)).getLast? with
    | some count =>
      rw [hcount] at h
      obtain ⟨p, hp, -⟩ := h
      cases hp
    | none =>
      rw [hcount] at h hq
      by_cases hb : lowerBounds body size a = []
      · simp only [hb, ne_eq, not_true_eq_false, if_false] at h hq
        cases hw : walletMoved a size with
        | some moved => simp [hw] at h
        | none =>
          simp only [hw] at h hq
          exact absurd (hq.trans h.symm) (by simp)
      · simp only [ne_eq, hb, not_false_eq_true, if_true] at h
        obtain ⟨p, hp, -⟩ := h
        cases hp

/-- What an outcome may say of an order, and what it must hand on. -/
structure OutcomeTruthful (resp : Dict) (side : FillAction) (size : ℚ) (a : SettleAnswers)
    (out : Except ExecResult Fill) : Prop where
  /-- Nothing rests: the body covers the order, a cancel of this very id was
  acknowledged, or a reading of it was terminal. -/
  offBook : saysOffBook out = true → (postBody resp side).covers size = true ∨
    ∃ orderId, (postBody resp side).orderId = some orderId ∧
      ((∃ r ∈ a.seen orderId size, r.acks orderId = true) ∨
        ∃ r ∈ a.reads orderId size, r.terminal size = true)
  /-- A clean miss: nothing rests and the sources establish a zero. -/
  cleanMiss : isCleanMiss out = true →
    saysOffBook out = true ∧ Concluded (postBody resp side) size a (some 0)
  unknown : Concluded (postBody resp side) size a none → isCleanMiss out = false
  /-- An order that may rest, and can be named, is handed on. -/
  carried : ∀ orderId, (postBody resp side).orderId = some orderId →
    (postBody resp side).covers size = false → (∀ r ∈ a.seen orderId size, r.acks orderId = false) →
    (∀ r ∈ a.reads orderId size, r.terminal size = false) → restingId out = some orderId

theorem knownOff_iff (body : OrderResponse) (size : ℚ) (a : SettleAnswers) :
    knownOff body size a = true ↔ ∃ orderId, body.orderId = some orderId ∧
      ((∃ r ∈ a.seen orderId size, r.acks orderId = true) ∨
        ∃ r ∈ a.reads orderId size, r.terminal size = true) := by
  unfold knownOff SettleAnswers.offBook
  cases body.orderId with
  | none => simp
  | some orderId => simp [List.any_eq_true]

theorem cleanMiss_concluded {resp : Dict} {side : FillAction} {size limitPrice : ℚ}
    {a : SettleAnswers} {estimatePrice : Option (ℚ → ℚ)} (hsize : 0 ≤ size)
    (h : isCleanMiss (resolveFill resp side size limitPrice a estimatePrice) = true) :
    Concluded (postBody resp side) size a (some 0) := by
  have hs := resolveFill_cleanMiss h
  have hc := @concluded_settleAnswered resp side size a hsize
  rw [hs] at hc
  refine hc.mpr ?_
  -- after a blank refusal the order may rest, and this outcome says it does not
  by_contra hblank
  have hrests := settleAnswered_rests resp side size a
  rw [hs] at hrests
  simp only [blankRefusal, Bool.and_eq_true, Bool.not_eq_true', Bool.not_eq_false] at hblank
  obtain ⟨⟨⟨⟨⟨hcov, hoff⟩, -⟩, -⟩, -⟩, -⟩ := hblank
  simp [hcov, hoff] at hrests

/-- Every answered order's outcome is truthful. -/
theorem resolveFill_truthful (resp : Dict) (side : FillAction) (size limitPrice : ℚ)
    (a : SettleAnswers) (estimatePrice : Option (ℚ → ℚ)) (hsize : 0 ≤ size) :
    OutcomeTruthful resp side size a
      (resolveFill resp side size limitPrice a estimatePrice) := by
  have hrests := settleAnswered_rests resp side size a
  have hstated := resolveFill_saysOffBook resp side size limitPrice a estimatePrice
  refine ⟨fun h => ?_, fun h => ⟨?_, cleanMiss_concluded hsize h⟩, fun h => ?_, ?_⟩
  · rw [hstated, hrests, Bool.not_not, Bool.or_eq_true, knownOff_iff] at h
    exact h
  · rw [hstated, resolveFill_cleanMiss h]
    rfl
  · by_contra hmiss
    exact h.unknown 0 (cleanMiss_concluded hsize (by simpa using hmiss))
  · intro orderId hid hcov hacks hreads
    have hoff : knownOff (postBody resp side) size a = false := by
      rw [← Bool.not_eq_true, knownOff_iff, hid]
      rintro ⟨id, heq, ⟨r, hr, hack⟩ | ⟨r, hr, hterm⟩⟩
      · obtain rfl := Option.some.inj heq
        simp [hacks r hr] at hack
      · obtain rfl := Option.some.inj heq
        simp [hreads r hr] at hterm
    rw [resolveFill_restingId, hrests, hcov, hoff]
    exact hid

def missedBody : Dict := [("success", .bool true), ("orderID", .int 12345)]

def missedAnswers : SettleAnswers where
  rounds _ := ⟨.ok (.obj [("canceled", .arr [.int 12345])]), .error .valueError, false⟩
  final := .ok (.obj [("status", .str "LIVE"), ("size_matched", .str "0")])
  confirm := .ok (.fin 0)

theorem resolveFill_truthful_sample :
    isCleanMiss (resolveFill missedBody .buy 10 (1 / 2) missedAnswers none) = true ∧
      OutcomeTruthful missedBody .buy 10 missedAnswers
        (resolveFill missedBody .buy 10 (1 / 2) missedAnswers none) :=
  ⟨by decide +kernel,
    resolveFill_truthful missedBody .buy 10 (1 / 2) missedAnswers none (by decide +kernel)⟩

end OpenPoly
