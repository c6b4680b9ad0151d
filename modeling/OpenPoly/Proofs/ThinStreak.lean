import OpenPoly.Lib.Run
import OpenPoly.Lib.Unbroken
import OpenPoly.Proofs.ExitRun

/-! The hard stop on a thin mark that no ask bears out: it waits for the collapse
to be seen on three fetches in a row. What breaks the row, and when the count the
monitor keeps says so. -/

namespace OpenPoly

open Transition Unbroken

/-- An evaluation looked at the market, as against what was only observed of it. -/
def MarkRecord.isLook : MarkRecord → Bool
  | .unseen => true
  | .unmarkable => true
  | .evaluated _ _ _ => true
  | _ => false

/-- A collapse without an ask: a thin mark at the hard stop, and no ask level of
real size. -/
def MarkRecord.collapse : MarkRecord → Bool
  | .evaluated (.v1 config) marked _ =>
    marked.thin ∧ 0 < marked.avgEntryPrice ∧ marked.ask = none ∧
      marked.returnPct ≤ -config.hardStopLossPct
  | _ => false

/-- A thin mark without an ask is decided to be closed. -/
def MarkRecord.fires : MarkRecord → Bool
  | .evaluated exit marked _ =>
    marked.thin ∧ marked.ask = none ∧ (exit.run (some marked)).payload.isSome
  | _ => false

def Slot.looks (s : Slot) : List MarkRecord := s.records.filter MarkRecord.isLook

def ExitMonitor.looks (m : ExitMonitor) (positionId : ℕ) : List MarkRecord :=
  (m.slot positionId).looks

/-- Every hard stop fires on a collapse, and the looks right before it are an
unbroken run of collapses with at least two older fetches among them. -/
def InARow (looks : List MarkRecord) : Prop :=
  ∀ post r pre, looks = post ++ r :: pre → r.fires = true →
    r.collapse = true ∧ ∃ stamp, r.stamp = some stamp ∧
      2 ≤ ((stamps MarkRecord.collapse MarkRecord.stamp pre).filter (· < stamp)).card

theorem inARow_nil : InARow [] := by
  intro post r pre h
  simp at h

theorem InARow.cons {looks : List MarkRecord} {r : MarkRecord} (h : InARow looks)
    (hr : r.fires = true → r.collapse = true ∧ ∃ stamp, r.stamp = some stamp ∧
      2 ≤ ((stamps MarkRecord.collapse MarkRecord.stamp looks).filter (· < stamp)).card) :
    InARow (r :: looks) := by
  intro post r' pre heq hfires
  cases post with
  | nil =>
    obtain ⟨rfl, rfl⟩ := List.cons.inj heq
    exact hr hfires
  | cons p post =>
    obtain ⟨-, rfl⟩ := List.cons.inj heq
    exact h post r' pre rfl hfires

def ExitSection.collapsesOn (exit : ExitSection) (held : HeldPosition) (book : OrderBook) : Bool :=
  match exit, exit.mark book with
  | .v1 config, some (price, true) =>
    0 < held.avgEntryPrice ∧ firstLevelWithSize book.asks = none ∧
      (price - held.avgEntryPrice) / held.avgEntryPrice ≤ -config.hardStopLossPct
  | _, _ => false

theorem collapsesOn_eq {exit : ExitSection} {held : HeldPosition} {book : OrderBook}
    {p : PositionState} {stamp : Option ℚ} {now price : ℚ} {thin : Bool}
    (h : exit.mark book = some (price, thin)) :
    (MarkRecord.evaluated exit (markedPosition held book p stamp now price thin) stamp).collapse =
      exit.collapsesOn held book := by
  unfold ExitSection.collapsesOn
  rw [h]
  cases exit with
  | v0 config => rfl
  | v1 config => cases thin <;> simp [MarkRecord.collapse, markedPosition, markAsk,
      MarkedPosition.returnPct]

theorem thinMark_pending {config : ThresholdExitConfigV1} {pos : MarkedPosition}
    (h : (thinMarkDecision config pos).signals.thinStopPending = true) :
    pos.returnPct ≤ -config.hardStopLossPct ∧ pos.ask = none ∧
      (thinMarkDecision config pos).payload = none := by
  unfold thinMarkDecision at h ⊢
  by_cases hret : -config.hardStopLossPct < pos.returnPct
  · simp [hret] at h
  cases hask : pos.ask with
  | some ask =>
    by_cases hconfirmed : -config.hardStopLossPct < (ask - pos.avgEntryPrice) / pos.avgEntryPrice <;>
      simp [hret, hask, hconfirmed, thinStop] at h
  | none =>
    by_cases hstreak : pos.thinStreak + 1 < thinNoAskConfirmTicks
    · exact ⟨not_lt.mp hret, rfl, by simp [hret, hstreak]⟩
    · simp [hret, hask, hstreak, thinStop] at h

theorem thinMark_fires {config : ThresholdExitConfigV1} {pos : MarkedPosition}
    (hask : pos.ask = none) (h : (thinMarkDecision config pos).payload.isSome = true) :
    pos.returnPct ≤ -config.hardStopLossPct ∧ 2 ≤ pos.thinStreak := by
  unfold thinMarkDecision at h
  by_cases hret : -config.hardStopLossPct < pos.returnPct
  · simp [hret] at h
  by_cases hstreak : pos.thinStreak + 1 < thinNoAskConfirmTicks
  · simp [hret, hask, hstreak] at h
  · simp only [thinNoAskConfirmTicks] at hstreak
    exact ⟨not_lt.mp hret, by omega⟩

theorem steps_notPending (steps : ExitSteps) (config : ThresholdExitConfig)
    (pos : MarkedPosition) : (steps.run config (some pos)).signals.thinStopPending = false := by
  unfold ExitSteps.run
  by_cases hentry : pos.avgEntryPrice ≤ 0
  · simp [hentry]
  · cases htrigger : steps.trigger config pos <;> simp [hentry, htrigger, ExitSteps.signals]

theorem maxHold_notPending {config : ThresholdExitConfigV1} {pos : MarkedPosition} {out : ExitOutput}
    (h : out.signals.thinStopPending = false) :
    (maxHoldDecision config pos out).signals.thinStopPending = false := by
  unfold maxHoldDecision
  split
  · exact h
  · split_ifs <;> exact h

/-- A stop that is pending is a collapse, and closes nothing. -/
theorem run_pending {exit : ExitSection} {marked : MarkedPosition} (stamp : Option ℚ)
    (h : (exit.run (some marked)).signals.thinStopPending = true) :
    (MarkRecord.evaluated exit marked stamp).collapse = true ∧
      (exit.run (some marked)).payload = none := by
  cases exit with
  | v0 config => simp [ExitSection.run, steps_notPending] at h
  | v1 config =>
    have hsteps := steps_notPending (exitStepsV1 config) config.toThresholdExitConfig marked
    simp only [ExitSection.run, exitRunV1] at h ⊢
    by_cases hthin : marked.thin = true ∧ 0 < marked.avgEntryPrice
    · rw [if_pos hthin] at h ⊢
      obtain ⟨hret, hask, hnone⟩ := thinMark_pending h
      exact ⟨by simp [MarkRecord.collapse, hthin, hask, hret], hnone⟩
    · rw [if_neg hthin] at h
      have hnoted : (noteStopReturn marked ((exitStepsV1 config).run config.toThresholdExitConfig
          (some marked))).signals.thinStopPending = false := hsteps
      split_ifs at h
      · rw [maxHold_notPending hnoted] at h
        cases h
      · rw [hnoted] at h
        cases h
      · rw [hsteps] at h
        cases h

/-- A stop without an ask fires on a collapse, and after two others. -/
theorem run_fires {exit : ExitSection} {marked : MarkedPosition} (stamp : Option ℚ)
    (hthin : marked.thin = true) (hask : marked.ask = none) (hexit : exit.evaluatesThinMarks = true)
    (h : (exit.run (some marked)).payload.isSome = true) :
    (MarkRecord.evaluated exit marked stamp).collapse = true ∧ 2 ≤ marked.thinStreak := by
  cases exit with
  | v0 config => simp [ExitSection.evaluatesThinMarks] at hexit
  | v1 config =>
    simp only [ExitSection.run, exitRunV1] at h
    by_cases hentry : 0 < marked.avgEntryPrice
    · rw [if_pos ⟨hthin, hentry⟩] at h
      obtain ⟨hret, hstreak⟩ := thinMark_fires hask h
      exact ⟨by simp [MarkRecord.collapse, hthin, hentry, hask, hret], hstreak⟩
    · simp [hentry, ExitSteps.run, not_lt.mp hentry] at h

def Slot.Counted (s : Slot) (looks : List MarkRecord) : Prop :=
  Backs MarkRecord.collapse MarkRecord.stamp looks s.position.thinStreak s.position.thinStamp

def Slot.Upto (s : Slot) (stamp : ℚ) : Prop := ∀ t ∈ s.records.filterMap MarkRecord.stamp, t ≤ stamp

variable {s s' : Slot} {exit : ExitSection} {held : HeldPosition} {book : OrderBook} {stamp now ts : ℚ}
  {d : MarkDecision} {r : MarkRecord} {looks : List MarkRecord} {g : Grounds}

theorem counted_core (h : s'.core = s.core) : s'.Counted looks ↔ s.Counted looks := by
  simp only [Slot.core, Prod.mk.injEq] at h
  simp only [Slot.Counted, h]

theorem looks_core (h : s'.core = s.core) : s'.looks = s.looks := by
  simp only [Slot.core, Prod.mk.injEq] at h
  simp only [Slot.looks, h]

/-- The last counted stamp is among the looks, none of which is later. -/
theorem Slot.Counted.last_le (h : s.Counted looks) (hsub : looks.Sublist s.looks)
    (hle : s.Upto stamp) : ∀ j, s.position.thinStamp = some j → 0 < s.position.thinStreak → j ≤ stamp := by
  intro j hj hpos
  obtain ⟨k, hk, hmem, -⟩ := h hpos
  obtain rfl : k = j := Option.some.inj (hk.symm.trans hj)
  refine hle k ?_
  exact ((hsub.trans List.filter_sublist).filterMap _).subset (mem_stamps hmem)

/-- A decision on a marked book, and the look recorded of it. -/
structure Decides (s s' : Slot) (exit : ExitSection) (held : HeldPosition) (book : OrderBook)
    (stamp : ℚ) (d : MarkDecision) (r : MarkRecord) : Prop where
  records : s'.records = r :: s.records
  looks : s'.looks = r :: s.looks
  streak : s'.position.thinStreak = s.position.thinStreak
  last : s'.position.thinStamp = s.position.thinStamp
  look_stamp : r.stamp = some stamp
  stamped : d.stamp = some stamp
  collapse : r.collapse = exit.collapsesOn held book
  pending : d.out.signals.thinStopPending = true → r.collapse = true ∧ d.out.payload = none
  fires : r.fires = true → r.collapse = true ∧ 2 ≤ priorThinStreak s.position (some stamp)

theorem decide_decides (h : s.decide exit held book (some stamp) now = (some d, s')) :
    ∃ r, Decides s s' exit held book stamp d r := by
  obtain ⟨price, thin, hmark, hout, -, hstamp, rfl⟩ := decide_some h
  refine ⟨.evaluated exit (markedPosition held book s.position (some stamp) now price thin)
    (some stamp), rfl, rfl, by cases thin <;> rfl, by cases thin <;> rfl, rfl, hstamp,
    collapsesOn_eq hmark, fun hpending => ?_, fun hfires => ?_⟩
  · rw [hout] at hpending ⊢
    exact run_pending (some stamp) hpending
  · simp only [MarkRecord.fires, decide_eq_true_eq] at hfires
    obtain ⟨hthin, hask, hclose⟩ := hfires
    obtain rfl : thin = true := hthin
    have hexit : exit.evaluatesThinMarks = true := by
      rcases mark_eq hmark with ⟨h, -⟩ | ⟨-, -, h, -⟩
      · cases h
      · exact h
    exact run_fires (some stamp) rfl hask hexit hclose

/-- A stop decided on fires in a row, if the looks before it back the count. -/
theorem Decides.inARow (h : Decides s s' exit held book stamp d r) (hrow : InARow s.looks)
    (hcounted : r.collapse = true → s.Counted s.looks) (hle : s.Upto stamp) : InARow s'.looks := by
  rw [h.looks]
  refine hrow.cons fun hfires => ?_
  obtain ⟨hcollapse, hprior⟩ := h.fires hfires
  have hcount := hcounted hcollapse
  refine ⟨hcollapse, stamp, h.look_stamp, hprior.trans ?_⟩
  have holder := hcount.older (hcount.last_le (List.Sublist.refl _) hle)
  unfold priorThinStreak
  simpa [eq_comm] using holder

/-- Tracking the decision of a look keeps the count backed. -/
theorem Decides.track (h : Decides s s' exit held book stamp d r)
    (hcounted : r.collapse = true → s.Counted s.looks) :
    (s'.trackThinStreak (some d)).Counted s'.looks := by
  unfold Slot.trackThinStreak
  by_cases hpending : d.thin = true ∧ d.out.signals.thinStopPending = true
  · obtain ⟨hcollapse, -⟩ := h.pending hpending.2
    have hcount := hcounted hcollapse
    rw [Option.filter_some, if_pos (by simpa using hpending), h.looks]
    simp only [h.stamped, h.last, h.streak, reduceCtorEq, false_or, Option.getD_some]
    split_ifs with hnew
    · refine hcount.count hcollapse h.look_stamp fun hpos j hj => ?_
      simpa [hj] using hnew
    · show Backs _ _ _ s'.position.thinStreak s'.position.thinStamp
      rw [h.streak, h.last]
      exact hcount.extend hcollapse h.look_stamp
  · rw [Option.filter_some, if_neg (by simpa using hpending)]
    show Backs _ _ _ _ _
    rw [map_position s' (f := fun p => { p with thinStreak := 0, thinStamp := none }) rfl]
    exact backs_zero _ _

/-- A look at a collapse that is not counted leaves the count backed. -/
theorem Decides.extend (h : Decides s s' exit held book stamp d r) (hcollapse : r.collapse = true)
    (hcount : s.Counted s.looks) : s'.Counted s'.looks := by
  show Backs _ _ _ s'.position.thinStreak s'.position.thinStamp
  rw [h.looks, h.streak, h.last]
  exact hcount.extend hcollapse h.look_stamp

theorem counted_of_zero (h : ¬ 0 < s.position.thinStreak) : s.Counted looks := by
  intro hpos
  exact absurd hpos h

theorem counted_track_none : (s.trackThinStreak none).Counted looks := by
  refine counted_of_zero ?_
  have hposition : (s.trackThinStreak none).position =
      { s.position with thinStreak := 0, thinStamp := none } := map_position s rfl
  simp [hposition]

/-- While a count is kept, the evaluation finds a book with bids; and where that is
no collapse, no close decided on it at once is held back by the backoff. -/
def Slot.EvaluateCounts (s : Slot) (exit : ExitSection) (held : HeldPosition) (g : Grounds)
    (sight : Sight) : Prop :=
  0 < s.position.thinStreak → isDustQty held.qty = false →
    ∃ c, sight.cached = some c ∧ c.fetched.book.bids ≠ [] ∧
      (exit.collapsesOn held c.fetched.book = true ∨
        ∀ d s', s.decide exit held c.fetched.book (some c.fetchedAt) sight.now = (some d, s') →
          sight.bookClock - c.fetchedAt ≤ maxBookAgeSeconds → d.heldBack s' g.clock = false)

/-- While a count is kept, the book the close was decided on and the one re-fetched
are both such collapses; or the re-fetched one is not, the confirmation does not
hold, and neither does the backoff. -/
def Slot.ConfirmCounts (s : Slot) (exit : ExitSection) (held : HeldPosition) (g : Grounds)
    (d : MarkDecision) (r : Refetched) : Prop :=
  0 < s.position.thinStreak →
    (s.looks.head?.any MarkRecord.collapse = true ∧
      ∀ c, r.verdict = .fresh c → exit.collapsesOn held c.fetched.book = true) ∨
    ((∀ c, r.verdict = .fresh c → exit.collapsesOn held c.fetched.book = false) ∧
      ∃ d' s', s.confirmClose exit held d r = (.ok d', s') ∧ d'.heldBack s' g.clock = false)

/-- What is known of a close that waits to be confirmed: the look it was decided
on, the looks before it, and that it closes. -/
structure Awaits (s : Slot) (d : MarkDecision) (r : MarkRecord) (pre : List MarkRecord) : Prop where
  looks : s.looks = r :: pre
  counted : s.Counted pre
  look_stamp : ∃ stamp, r.stamp = some stamp
  closes : d.out.payload.isSome = true
  pending : d.out.signals.thinStopPending = true → d.out.payload = none

/-- What an evaluation leaves: the stops fired in a row, and the count backed, by
the looks before the last one where the close on it waits to be confirmed. -/
structure StreakKept (out : Next × Slot) : Prop where
  row : InARow out.2.looks
  counted : (∀ d age, out.1 ≠ .refetch d age) → out.2.Counted out.2.looks
  waiting : ∀ d age, out.1 = .refetch d age → ∃ r pre, Awaits out.2 d r pre

theorem conclude_ne_refetch (s : Slot) (held : HeldPosition) (ts : ℚ) (g : Grounds)
    (decision : Option MarkDecision) (d : MarkDecision) (age : ℚ) :
    (s.conclude held ts g decision).1 ≠ .refetch d age := by
  unfold Slot.conclude
  dsimp only
  split
  · simp
  · split
    · split_ifs <;> simp
    · split_ifs <;> simp

theorem conclude_kept {decision : Option MarkDecision} (hrow : InARow s.looks)
    (hcounted : (s.trackThinStreak decision).Counted s.looks) :
    StreakKept (s.conclude held ts g decision) := by
  have hcore := conclude_core s held ts g decision
  have hlooks : (s.conclude held ts g decision).2.looks = s.looks := by
    rw [looks_core hcore]
    unfold Slot.trackThinStreak
    split
    · dsimp only
      split_ifs <;> rfl
    · rfl
  refine ⟨hlooks ▸ hrow, fun _ => ?_, fun d age h => absurd h (conclude_ne_refetch s held ts g _ d age)⟩
  rw [counted_core hcore, hlooks]
  exact hcounted

theorem act_kept (hrow : InARow s.looks) (hback : d.heldBack s g.clock = true → s.Counted s.looks)
    (hcounted : (s.trackThinStreak (some d)).Counted s.looks) : StreakKept (s.act held ts g d) := by
  unfold Slot.act
  split_ifs with h
  · exact ⟨hrow, fun _ => hback h, fun d age h => by cases h⟩
  · exact conclude_kept hrow hcounted

/-- An evaluation that counts or resets keeps the count backed. -/
theorem evaluate_kept {sight : Sight} (hrow : InARow s.looks) (hcount : s.Counted s.looks)
    (hle : ∀ c, sight.cached = some c → s.Upto c.fetchedAt)
    (hG : s.EvaluateCounts exit held g sight) : StreakKept (s.evaluate exit held ts g sight) := by
  have hunseen : InARow (MarkRecord.unseen :: s.looks) := hrow.cons fun h => by cases h
  have hpath := evaluate_path s exit held ts g sight
  generalize s.evaluate exit held ts g sight = out at hpath ⊢
  cases hpath with
  | dust hdust =>
    have hcore := noteDust_core s held ts
    refine ⟨looks_core hcore ▸ hrow, fun _ => ?_, fun d age h => by cases h⟩
    rw [counted_core hcore, looks_core hcore]
    exact hcount
  | noBook hdust hc =>
    have hcore := holdOnce_core (s.record .unseen) held ts sight.missing
    refine ⟨?_, fun _ => ?_, fun d age h => by cases h⟩
    · rw [looks_core hcore]
      exact hunseen
    · rw [counted_core hcore]
      refine counted_of_zero fun hpos => ?_
      obtain ⟨c, hc', -⟩ := hG hpos hdust
      rw [hc] at hc'
      cases hc'
  | @noBids c hdust hc hbids =>
    refine ⟨hunseen, fun _ => counted_of_zero fun hpos => ?_, fun d age h => by cases h⟩
    obtain ⟨c', hc', hne, -⟩ := hG hpos hdust
    obtain rfl : c = c' := Option.some.inj (hc.symm.trans hc')
    exact hne hbids
  | @unmarked c s' hdust hc hbids hdec =>
    obtain ⟨-, rfl⟩ := decide_none hdec
    refine conclude_kept ?_ counted_track_none
    rw [if_neg hbids]
    exact hrow.cons fun h => by cases h
  | @kept c d s' hdust hc hdec hnone =>
    obtain ⟨r, hr⟩ := decide_decides hdec
    exact conclude_kept (hr.inARow hrow (fun _ => hcount) (hle c hc)) (hr.track fun _ => hcount)
  | @young c d s' close hdust hc hdec hclose hage =>
    obtain ⟨r, hr⟩ := decide_decides hdec
    refine act_kept (hr.inARow hrow (fun _ => hcount) (hle c hc)) (fun hheld => ?_)
      (hr.track fun _ => hcount)
    by_cases hpos : 0 < s.position.thinStreak
    · obtain ⟨c', hc', -, hcase⟩ := hG hpos hdust
      obtain rfl : c = c' := Option.some.inj (hc.symm.trans hc')
      rcases hcase with hcollapse | hfree
      · exact hr.extend (hr.collapse.trans hcollapse) hcount
      · rw [hfree d s' hdec hage] at hheld
        cases hheld
    · exact counted_of_zero (hr.streak ▸ hpos)
  | @old c d s' close hdust hc hdec hclose hage =>
    obtain ⟨r, hr⟩ := decide_decides hdec
    refine ⟨hr.inARow hrow (fun _ => hcount) (hle c hc), fun h => absurd rfl (h d _), ?_⟩
    intro d' age h
    cases h
    refine ⟨r, s.looks, hr.looks, ?_, ⟨_, hr.look_stamp⟩, by rw [hclose]; rfl,
      fun h => (hr.pending h).2⟩
    show Backs _ _ _ s'.position.thinStreak s'.position.thinStamp
    rw [hr.streak, hr.last]
    exact hcount

/-- A decision that closes resets the count when it is tracked. -/
theorem counted_track_close (h : d.out.payload.isSome = true)
    (hd : d.out.signals.thinStopPending = true → d.out.payload = none) :
    (s.trackThinStreak (some d)).Counted looks := by
  have hpending : d.out.signals.thinStopPending = false := by
    by_contra hne
    rw [hd (by simpa using hne)] at h
    cases h
  unfold Slot.trackThinStreak
  rw [Option.filter_some, if_neg (by simp [hpending])]
  refine counted_of_zero ?_
  rw [map_position s (f := fun p => { p with thinStreak := 0, thinStamp := none }) rfl]
  exact lt_irrefl 0

/-- A confirmation that counts or resets keeps the count backed. -/
theorem confirm_kept {r₀ : MarkRecord} {pre : List MarkRecord} {rf : Refetched}
    (hrow : InARow s.looks) (hw : Awaits s d r₀ pre) (hle : ∀ c, rf.cached = some c → s.Upto c.fetchedAt)
    (hG : s.ConfirmCounts exit held g d rf) : StreakKept (s.confirm exit held ts g d rf) := by
  -- where the count goes on, the book the close was decided on is a collapse
  have hextend : r₀.collapse = true → s.Counted s.looks := by
    intro hcollapse
    obtain ⟨stamp, hstamp⟩ := hw.look_stamp
    rw [hw.looks]
    exact hw.counted.extend hcollapse hstamp
  have hhead : s.looks.head?.any MarkRecord.collapse = r₀.collapse := by rw [hw.looks]; rfl
  have hclose : ∀ s' : Slot, (s'.trackThinStreak (some d)).Counted s'.looks :=
    fun s' => counted_track_close hw.closes hw.pending
  have hpath := confirm_path s exit held ts g d rf
  generalize hout : s.confirm exit held ts g d rf = out at hpath ⊢
  cases hpath with
  | @held reason hv =>
    have hcore := holdOnce_core s held ts reason
    refine ⟨looks_core hcore ▸ hrow, fun _ => ?_, fun d age h => by cases h⟩
    rw [counted_core hcore, looks_core hcore]
    by_cases hpos : 0 < s.position.thinStreak
    · rcases hG hpos with ⟨hcollapse, -⟩ | ⟨-, d', s', hok, -⟩
      · exact hextend (hhead ▸ hcollapse)
      · simp [Slot.confirmClose, hv] at hok
    · exact counted_of_zero hpos
  | asIs hv =>
    refine act_kept hrow (fun hheld => ?_) (hclose s)
    by_cases hpos : 0 < s.position.thinStreak
    · rcases hG hpos with ⟨hcollapse, -⟩ | ⟨-, d', s', hok, hfree⟩
      · exact hextend (hhead ▸ hcollapse)
      · simp only [Slot.confirmClose, hv, Prod.mk.injEq, Except.ok.injEq] at hok
        obtain ⟨rfl, rfl⟩ := hok
        rw [hfree] at hheld
        cases hheld
    · exact counted_of_zero hpos
  | @unmarked c s' hv hdec =>
    obtain ⟨hmark, hs'⟩ := decide_none hdec
    have hnone : exit.collapsesOn held c.fetched.book = false := by
      simp [ExitSection.collapsesOn, hmark]
    have hrow' : InARow s'.looks := by
      rw [hs']
      split_ifs
      · exact hrow.cons fun h => by cases h
      · exact hrow.cons fun h => by cases h
    refine act_kept hrow' (fun hheld => ?_) (hclose s')
    by_cases hpos : 0 < s.position.thinStreak
    · rcases hG hpos with ⟨-, hcollapse⟩ | ⟨-, d', s'', hok, hfree⟩
      · rw [hcollapse c hv] at hnone
        cases hnone
      · simp only [Slot.confirmClose, hv, hdec, Prod.mk.injEq, Except.ok.injEq,
          Option.getD_none] at hok
        obtain ⟨rfl, rfl⟩ := hok
        rw [hfree] at hheld
        cases hheld
    · refine counted_of_zero ?_
      rw [hs']
      exact hpos
  | @marked c d' s' hv hdec =>
    obtain ⟨r, hr⟩ := decide_decides hdec
    have hcount : r.collapse = true → s.Counted s.looks := by
      intro hcollapse
      by_cases hpos : 0 < s.position.thinStreak
      · rcases hG hpos with ⟨hfirst, -⟩ | ⟨hnot, -⟩
        · exact hextend (hhead ▸ hfirst)
        · rw [hr.collapse, hnot c hv] at hcollapse
          cases hcollapse
      · exact counted_of_zero hpos
    refine act_kept (hr.inARow hrow hcount (hle c (verdict_fresh hv))) (fun hheld => ?_)
      (hr.track hcount)
    by_cases hpos : 0 < s.position.thinStreak
    · rcases hG hpos with ⟨hfirst, hcollapse⟩ | ⟨-, d'', s'', hok, hfree⟩
      · exact hr.extend (hr.collapse.trans (hcollapse c hv)) (hextend (hhead ▸ hfirst))
      · simp only [Slot.confirmClose, hv, hdec, Prod.mk.injEq, Except.ok.injEq,
          Option.getD_some] at hok
        obtain ⟨rfl, rfl⟩ := hok
        rw [hfree] at hheld
        cases hheld
    · exact counted_of_zero (hr.streak ▸ hpos)

def TickPhase.waits : TickPhase → Option (HeldPosition × MarkDecision)
  | .refetching _ held d _ => some (held, d)
  | _ => none

def ExitMonitor.Counts (m : ExitMonitor) : ExitEvent → Prop
  | .evaluate sight clock => ∀ ts held rest, m.phase = .sweeping ts (held :: rest) →
      (m.slot held.positionId).EvaluateCounts m.exit held (m.grounds held.positionId clock) sight
  | .refetched r clock => ∀ ts held d rest, m.phase = .refetching ts held d rest →
      (m.slot held.positionId).ConfirmCounts m.exit held (m.grounds held.positionId clock) d r
  | _ => True

structure StreakInv (m : ExitMonitor) : Prop where
  row : ∀ id, InARow (m.looks id)
  counted : ∀ id, (∀ w ∈ m.phase.waits, w.1.positionId ≠ id) → (m.slot id).Counted (m.looks id)
  waiting : ∀ w ∈ m.phase.waits, ∃ r pre, Awaits (m.slot w.1.positionId) w.2 r pre

variable {m m' : ExitMonitor} {rest : List HeldPosition}

/-- Only the slot of the position that is evaluated changes. -/
theorem StreakInv.advance (h : StreakInv m) (hother : ∀ w ∈ m.phase.waits, w.1 = held)
    {out : Next × Slot} (hout : StreakKept out) : StreakInv (m.advance ts held rest out) := by
  have hself : (m.advance ts held rest out).slot held.positionId = out.2 := by
    rw [advance_slot, setSlot_slot]
  have hne : ∀ id ≠ held.positionId,
      ((m.advance ts held rest out).slot id).core = (m.slot id).core := by
    intro id hid
    rw [advance_slot]
    exact setSlot_core_of_ne m out.2 hid
  refine ⟨fun id => ?_, fun id hid => ?_, fun w hw => ?_⟩
  · rcases eq_or_ne id held.positionId with rfl | hid
    · show InARow ((m.advance ts held rest out).slot held.positionId).looks
      rw [hself]
      exact hout.row
    · show InARow ((m.advance ts held rest out).slot id).looks
      rw [looks_core (hne id hid)]
      exact h.row id
  · rcases eq_or_ne id held.positionId with rfl | hid'
    · show ((m.advance ts held rest out).slot held.positionId).Counted
        ((m.advance ts held rest out).slot held.positionId).looks
      rw [hself]
      refine hout.counted fun d age hnext => ?_
      refine hid (held, d) ?_ rfl
      simp [ExitMonitor.advance, hnext, TickPhase.waits]
    · show ((m.advance ts held rest out).slot id).Counted ((m.advance ts held rest out).slot id).looks
      rw [counted_core (hne id hid'), looks_core (hne id hid')]
      exact h.counted id fun w hw => by rw [hother w hw]; exact hid'.symm
  · cases hnext : out.1 with
    | done blocked => simp [ExitMonitor.advance, hnext, TickPhase.waits] at hw
    | sell order => simp [ExitMonitor.advance, hnext, TickPhase.waits] at hw
    | refetch d age =>
      obtain rfl : (held, d) = w := by
        simpa [ExitMonitor.advance, hnext, TickPhase.waits] using hw
      rw [hself]
      exact hout.waiting d age hnext

/-- A step that keeps the looks, and what a count that is not reset stands for. -/
theorem StreakInv.same (h : StreakInv m) (hwaits : m'.phase.waits = m.phase.waits)
    (hlooks : ∀ id, m'.looks id = m.looks id)
    (hcount : ∀ id, (m'.slot id).position.thinStreak = (m.slot id).position.thinStreak ∧
      (m'.slot id).position.thinStamp = (m.slot id).position.thinStamp) : StreakInv m' := by
  refine ⟨fun id => hlooks id ▸ h.row id, fun id hid => ?_, fun w hw => ?_⟩
  · show Backs _ _ _ _ _
    rw [hlooks id, (hcount id).1, (hcount id).2]
    exact h.counted id (hwaits ▸ hid)
  · obtain ⟨r, pre, hr⟩ := h.waiting w (hwaits ▸ hw)
    refine ⟨r, pre, (hlooks _).trans hr.looks, ?_, hr.look_stamp, hr.closes, hr.pending⟩
    show Backs _ _ _ _ _
    rw [(hcount _).1, (hcount _).2]
    exact hr.counted

theorem reads_upto {id : ℕ} {cached : Option CachedBook} (h : m.reads id cached = true) :
    ∀ c, cached = some c → (m.slot id).Upto c.fetchedAt := by
  rintro c rfl t ht
  simp only [ExitMonitor.reads, Option.all_some, List.all_eq_true, decide_eq_true_eq] at h
  exact h t ht

theorem streakInv_step {e : ExitEvent} (h : StreakInv m) (hG : m.Counts e)
    (hstep : m.step e = some m') : StreakInv m' := by
  cases step_stepped hstep with
  | readOpens hphase => exact h.same (by rw [hphase]; rfl) (fun _ => rfl) fun _ => ⟨rfl, rfl⟩
  | @sweep ts opens hphase =>
    refine ⟨h.row, fun id _ => ?_, fun w hw => by cases hw⟩
    have hcount := h.counted id (by simp [hphase, TickPhase.waits])
    have hslot : (m.beginSweep ts opens).slot id =
        ⟨if id ∈ opens.map HeldPosition.positionId then m.states id else none, m.log,
          m.records id⟩ := rfl
    show ((m.beginSweep ts opens).slot id).Counted _
    rw [hslot]
    split_ifs with hmem
    · exact hcount
    · exact counted_of_zero (lt_irrefl 0)
  | @evaluate sight clock ts held rest hphase hreads =>
    have hfree : ∀ w ∈ m.phase.waits, w.1 = held := by simp [hphase, TickPhase.waits]
    refine h.advance hfree (evaluate_kept (h.row _) (h.counted _ ?_) (reads_upto hreads)
      (hG ts held rest hphase))
    simp [hphase, TickPhase.waits]
  | @refetched r clock ts held d rest hphase hreads =>
    have hself : ∀ w ∈ m.phase.waits, w.1 = held := by simp [hphase, TickPhase.waits]
    obtain ⟨r₀, pre, hw⟩ := h.waiting (held, d) (by rw [hphase]; rfl)
    exact h.advance hself (confirm_kept (h.row _) hw (reads_upto hreads) (hG ts held d rest hphase))
  | execute hphase => exact h.same (by rw [hphase]; rfl) (fun _ => rfl) fun _ => ⟨rfl, rfl⟩
  | raised hphase => exact h.same (by rw [hphase]; rfl) (fun _ => rfl) fun _ => ⟨rfl, rfl⟩
  | @finish clock outage ts held order r rest hphase =>
    have hcore := finishSell_core { m with closing := Registry.discard held.positionId m.closing } ts
      held order rest clock outage r
    simp only [Slot.core, Prod.mk.injEq] at hcore
    refine h.same (by rw [hphase]; rfl) (fun id => ?_) fun id => ⟨(hcore id).2.1, (hcore id).2.2.1⟩
    exact congrArg (List.filter MarkRecord.isLook) (hcore id).2.2.2
  | tickDone hphase => exact h.same (by rw [hphase]; rfl) (fun _ => rfl) fun _ => ⟨rfl, rfl⟩
  | @observe book =>
    refine h.same ?_ (fun id => ?_) fun id => observeBook_slot m book id
    · unfold ExitMonitor.observeBook
      split <;> rfl
    · show (((m.observeBook book).slot id).records).filter _ = _
      unfold ExitMonitor.observeBook
      split
      · rfl
      · dsimp only [ExitMonitor.slot]
        split_ifs
        · exact List.filter_cons_of_neg Bool.false_ne_true
        · rfl
  | replaceExit => exact h.same rfl (fun _ => rfl) fun _ => ⟨rfl, rfl⟩
  | ledger => exact h.same rfl (fun _ => rfl) fun _ => ⟨rfl, rfl⟩
  | trade => exact h.same rfl (fun _ => rfl) fun _ => ⟨rfl, rfl⟩
  | mark => exact h.same rfl (fun _ => rfl) fun _ => ⟨rfl, rfl⟩
  | clear => exact h.same rfl (fun _ => rfl) fun _ => ⟨rfl, rfl⟩

theorem streakInv_boot (exit : ExitSection) (live : LiveState)
    (snapshots : Option (List OrderBookSnapshot)) : StreakInv (.boot exit live snapshots) := by
  cases snapshots with
  | none => exact ⟨fun _ => inARow_nil, fun _ _ => backs_zero _ _, fun w hw => by cases hw⟩
  | some snapshots =>
    have hstart : StreakInv (.start exit live) :=
      ⟨fun _ => inARow_nil, fun _ _ => backs_zero _ _, fun w hw => by cases hw⟩
    refine hstart.same rfl (fun id => ?_) fun id => ?_
    · simp only [ExitMonitor.looks, Slot.looks, ExitMonitor.slot, ExitMonitor.boot,
        ExitMonitor.bootstrapPeaks]
      split
      · exact List.filter_cons_of_neg Bool.false_ne_true
      · rfl
    · simp only [Slot.position, ExitMonitor.slot, ExitMonitor.boot, ExitMonitor.bootstrapPeaks]
      split <;> exact ⟨rfl, rfl⟩

def ExitStep (m : ExitMonitor) (e : ExitEvent) (m' : ExitMonitor) : Prop := m.step e = some m'

/-- Over every run whose evaluations count or reset, a hard stop on a thin mark
without an ask fires on a collapse, and on an unbroken run of collapses that shows
at least two older fetches. -/
theorem thin_stop_in_a_row {live : LiveState} {snapshots : Option (List OrderBookSnapshot)}
    {es : List ExitEvent}
    (h : Run (guarded ExitMonitor.Counts ExitStep) (.boot exit live snapshots) es m) (id : ℕ) :
    InARow (m.looks id) := by
  have hinv : StreakInv m := by
    refine h.invariant ?_ (streakInv_boot exit live snapshots)
    rintro m e m' hinv ⟨hG, hstep⟩
    exact streakInv_step hinv hG hstep
  exact hinv.row id

/-- Twenty YES shares bought at 0.50. -/
def thinRow : PositionRow := openRow 1
  { marketId := "m1", side := .yes, tokenId := "t1", conditionId := "0xc1", price := 1 / 2,
    qty := 20, ts := 0 }

def defaultStop : ThresholdExitConfigV1 := {}

def thinLive : LiveState := ⟨⟨[thinRow], []⟩, fun _ => none⟩

/-- Two shares bid at 0.20, nothing asked, fetched and read at `t`. -/
def thinSight (t : ℚ) : Sight :=
  ⟨t, some ⟨⟨⟨"t1", t, [(1 / 5, 2)], []⟩, t⟩, t⟩, false, t⟩

def missingSight (t : ℚ) : Sight := ⟨t, none, false, t⟩

def heldTick (t : ℚ) (sight : Sight) : List ExitEvent :=
  [.readOpens t, .sweep, .evaluate sight t, .tickDone]

def collapsing : List ExitEvent :=
  heldTick 10 (thinSight 10) ++ heldTick 20 (thinSight 20) ++
    [.readOpens 30, .sweep, .evaluate (thinSight 30) 30]

/-- The same with a tick that finds no book before the third collapse. -/
def interrupted : List ExitEvent :=
  heldTick 10 (thinSight 10) ++ heldTick 20 (thinSight 20) ++ heldTick 30 (missingSight 30) ++
    [.readOpens 40, .sweep, .evaluate (thinSight 40) 40]

/-- The evaluation, if the event is one, sees a collapse. -/
def ExitMonitor.seesCollapse (m : ExitMonitor) : ExitEvent → Bool
  | .evaluate sight _ =>
    match m.phase with
    | .sweeping _ (held :: _) => sight.cached.any fun c =>
        c.fetched.book.bids ≠ [] && m.exit.collapsesOn held c.fetched.book
    | _ => true
  | .refetched _ _ => false
  | _ => true

theorem seesCollapse_counts {e : ExitEvent} (h : m.seesCollapse e = true) : m.Counts e := by
  cases e with
  | evaluate sight clock =>
    intro ts held rest hphase _ _
    simp only [ExitMonitor.seesCollapse, hphase] at h
    obtain ⟨c, hc, hsees⟩ := (Option.any_eq_true _ _).mp h
    simp only [Bool.and_eq_true, decide_eq_true_eq] at hsees
    exact ⟨c, hc, hsees.1, .inl hsees.2⟩
  | refetched r clock => cases h
  | _ => trivial

def ExitMonitor.collapseStep (m : ExitMonitor) (e : ExitEvent) : Option ExitMonitor :=
  if m.seesCollapse e then m.step e else none

theorem thin_stop_in_a_row_sample :
    ∃ m, Run ExitStep (.boot (.v1 defaultStop) thinLive none) collapsing m ∧
      (m.looks 1).map MarkRecord.fires = [true, false, false] ∧ InARow (m.looks 1) := by
  have hsome : (collapsing.foldlM ExitMonitor.collapseStep
      (.boot (.v1 defaultStop) thinLive none)).isSome = true := by
    decide +kernel
  obtain ⟨m, hm⟩ := Option.isSome_iff_exists.mp hsome
  have hread : (collapsing.foldlM ExitMonitor.collapseStep
      (.boot (.v1 defaultStop) thinLive none)).map (fun m => (m.looks 1).map MarkRecord.fires) =
        some [true, false, false] := by
    decide +kernel
  rw [hm] at hread
  have hrun : Run (guarded (fun m e => ExitMonitor.seesCollapse m e = true) ExitStep)
      (.boot (.v1 defaultStop) thinLive none) collapsing m := run_checkedM hm
  refine ⟨m, hrun.mono fun _ _ _ hstep => hstep.2, Option.some.inj hread, ?_⟩
  exact thin_stop_in_a_row (hrun.mono fun _ _ _ hstep => ⟨seesCollapse_counts hstep.1, hstep.2⟩) 1

/-- The newest look is a stop that fires right after a look that was no collapse. -/
def stopsAfterBreak : List MarkRecord → Bool
  | r :: r' :: _ => r.fires && !r'.collapse
  | _ => false

theorem not_inARow {looks : List MarkRecord} (h : stopsAfterBreak looks = true) : ¬ InARow looks := by
  intro hrow
  unfold stopsAfterBreak at h
  split at h
  · rename_i r r' pre
    simp only [Bool.and_eq_true, Bool.not_eq_true'] at h
    obtain ⟨-, stamp, -, hcard⟩ := hrow [] r (r' :: pre) rfl h.1
    simp [stamps, h.2] at hcard
  · cases h

/-- The stop fires on the third collapse although a look in between found no book. -/
theorem missing_book_keeps_count :
    ∃ m, Run ExitStep (.boot (.v1 defaultStop) thinLive none) interrupted m ∧ ¬ InARow (m.looks 1) := by
  have hsome : (interrupted.foldlM ExitMonitor.step
      (.boot (.v1 defaultStop) thinLive none)).isSome = true := by
    decide +kernel
  obtain ⟨m, hm⟩ := Option.isSome_iff_exists.mp hsome
  have hread : (interrupted.foldlM ExitMonitor.step
      (.boot (.v1 defaultStop) thinLive none)).map (fun m => stopsAfterBreak (m.looks 1)) =
        some true := by
    decide +kernel
  rw [hm] at hread
  exact ⟨m, run_foldlM _ hm, not_inARow (Option.some.inj hread)⟩

end OpenPoly