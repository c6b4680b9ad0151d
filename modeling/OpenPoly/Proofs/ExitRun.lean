import OpenPoly.Proofs.ExitSlot

/-! One step of the exit monitor: what each event needs of the phase and what it
makes of the monitor, and which slots it touches. -/

namespace OpenPoly

/-- What each event needs, and the monitor it leaves. -/
inductive Stepped (m : ExitMonitor) : ExitEvent → ExitMonitor → Prop
  | readOpens {ts : ℚ} : m.phase = .idle →
      Stepped m (.readOpens ts) { m with phase := .read ts m.live.db.getOpenPositions }
  | sweep {ts : ℚ} {opens : List HeldPosition} : m.phase = .read ts opens →
      Stepped m .sweep (m.beginSweep ts opens)
  | evaluate {sight : Sight} {clock ts : ℚ} {held : HeldPosition} {rest : List HeldPosition} :
      m.phase = .sweeping ts (held :: rest) → m.reads held.positionId sight.cached = true →
      Stepped m (.evaluate sight clock) (m.advance ts held rest
        ((m.slot held.positionId).evaluate m.exit held ts (m.grounds held.positionId clock) sight))
  | refetched {r : Refetched} {clock ts : ℚ} {held : HeldPosition} {d : MarkDecision}
      {rest : List HeldPosition} :
      m.phase = .refetching ts held d rest → m.reads held.positionId r.cached = true →
      Stepped m (.refetched r clock) (m.advance ts held rest
        ((m.slot held.positionId).confirm m.exit held ts (m.grounds held.positionId clock) d r))
  | execute {request : SellRequest} {ts : ℚ} {held : HeldPosition} {order : SellOrder}
      {rest : List HeldPosition} :
      m.phase = .selling ts held order rest → request.isFor ts held order = true →
      Stepped m (.execute request) { m with
        live := (request.execute m.live).1
        phase := .sold ts held order (request.execute m.live).2 rest }
  | raised {clock : ℚ} {outage : Option PyErr} {ts : ℚ} {held : HeldPosition} {order : SellOrder}
      {exc : PyErr} {rest : List HeldPosition} : m.phase = .sold ts held order (.error exc) rest →
      Stepped m (.finish clock outage) { m with
        closing := Registry.discard held.positionId m.closing
        phase := .sweeping ts rest
        log := m.log ++ [{ held.row ts .error with error := some (.raised exc) }] }
  | finish {clock : ℚ} {outage : Option PyErr} {ts : ℚ} {held : HeldPosition} {order : SellOrder}
      {r : ExecResult} {rest : List HeldPosition} : m.phase = .sold ts held order (.ok r) rest →
      Stepped m (.finish clock outage)
        (({ m with closing := Registry.discard held.positionId m.closing } : ExitMonitor).finishSell ts
          held order rest clock outage r)
  | tickDone {ts : ℚ} : m.phase = .sweeping ts [] → Stepped m .tickDone { m with phase := .idle }
  | observe {book : OrderBook} : Stepped m (.observe book) (m.observeBook book)
  | replaceExit {exit : ExitSection} : Stepped m (.replaceExit exit) { m with exit := exit }
  | ledger {e : Attempt} :
      Stepped m (.ledger e) { m with live := { m.live with db := m.live.db.attempt e } }
  | trade {c : LiveCall} : Stepped m (.trade c) { m with live := (liveCall m.live c).1 }
  | mark {id : ℕ} : Stepped m (.mark id) { m with closing := m.closing.insert id }
  | clear {id : ℕ} : Stepped m (.clear id) { m with closing := Registry.discard id m.closing }

theorem step_stepped {m m' : ExitMonitor} {e : ExitEvent} (h : m.step e = some m') :
    Stepped m e m' := by
  cases e with
  | readOpens ts =>
    simp only [ExitMonitor.step] at h
    split at h <;> cases h
    exact .readOpens ‹_›
  | sweep =>
    simp only [ExitMonitor.step] at h
    split at h <;> cases h
    exact .sweep ‹_›
  | evaluate sight clock =>
    simp only [ExitMonitor.step] at h
    split at h
    · split_ifs at h with hreads
      cases h
      exact .evaluate ‹_› hreads
    · cases h
  | refetched r clock =>
    simp only [ExitMonitor.step] at h
    split at h
    · split_ifs at h with hreads
      cases h
      exact .refetched ‹_› hreads
    · cases h
  | execute request =>
    simp only [ExitMonitor.step] at h
    split at h
    · split_ifs at h with hfor
      cases h
      exact .execute ‹_› hfor
    · cases h
  | finish clock outage =>
    simp only [ExitMonitor.step] at h
    split at h
    · rename_i result rest hphase
      cases result with
      | error exc =>
        cases h
        exact .raised hphase
      | ok r =>
        cases h
        exact .finish hphase
    · cases h
  | tickDone =>
    simp only [ExitMonitor.step] at h
    split at h <;> cases h
    exact .tickDone ‹_›
  | observe book => cases h; exact .observe
  | replaceExit exit => cases h; exact .replaceExit
  | ledger e => cases h; exact .ledger
  | trade c => cases h; exact .trade
  | mark id => cases h; exact .mark
  | clear id => cases h; exact .clear

theorem setSlot_slot (m : ExitMonitor) (id : ℕ) (s : Slot) : (m.setSlot id s).slot id = s := by
  simp [ExitMonitor.setSlot, ExitMonitor.slot]

theorem setSlot_core_of_ne (m : ExitMonitor) {id id' : ℕ} (s : Slot) (h : id' ≠ id) :
    ((m.setSlot id s).slot id').core = (m.slot id').core := by
  simp [ExitMonitor.setSlot, ExitMonitor.slot, Slot.core, Slot.position, h]

theorem advance_slot (m : ExitMonitor) (ts : ℚ) (held : HeldPosition) (rest : List HeldPosition)
    (out : Next × Slot) (id : ℕ) :
    (m.advance ts held rest out).slot id = (m.setSlot held.positionId out.2).slot id := by
  unfold ExitMonitor.advance
  cases out.1 <;> rfl

theorem dropPeak_core (s : Slot) :
    s.dropPeak.core = (none, s.position.thinStreak, s.position.thinStamp, s.records) := by
  have hposition : s.dropPeak.position = { s.position with peak := none } := map_position s rfl
  simp only [Slot.core, hposition]
  rfl

/-- Of what decisions are made on, a finished sell changes the peak at most. -/
theorem finishClose_core {s : Slot} {held : HeldPosition} {ts clock : ℚ} {order : SellOrder}
    {r : ExecResult} {closed : Bool} {realized tick : ℚ} :
    (s.finishClose held ts clock order r closed realized tick).core =
      (if r.fillPrice.isSome && closed then none else s.position.peak, s.position.thinStreak,
        s.position.thinStamp, s.records) := by
  unfold Slot.finishClose
  cases hprice : r.fillPrice with
  | none =>
    unfold Slot.noteFailure
    simp only [Option.isSome_none, Bool.false_and, Bool.false_eq_true, if_false]
    split_ifs <;> rw [failOnce_core, recordCloseFailure_core] <;> rfl
  | some price =>
    unfold Slot.noteFill
    dsimp only
    have hclear := clearBackoff_core (s.put { s.position with restingOrderId := r.restingOrderId })
    simp only [Slot.core, Prod.mk.injEq] at hclear
    cases closed with
    | false =>
      simp only [Bool.false_eq_true, if_false, Bool.and_false]
      rw [write_core, clearBackoff_core]
      rfl
    | true =>
      simp only [if_true, Bool.and_true, Option.isSome_some, write_core, dropPeak_core, hclear]
      rfl

theorem finishSell_core (m : ExitMonitor) (ts : ℚ) (held : HeldPosition) (order : SellOrder)
    (rest : List HeldPosition) (clock : ℚ) (outage : Option PyErr) (r : ExecResult) (id : ℕ) :
    ((m.finishSell ts held order rest clock outage r).slot id).core =
      (if id = held.positionId ∧ r.fillPrice.isSome ∧ m.soldOut held r then none
        else (m.slot id).position.peak, (m.slot id).position.thinStreak,
        (m.slot id).position.thinStamp, (m.slot id).records) := by
  show ((m.setSlot held.positionId ((m.slot held.positionId).finishClose held ts clock order r
    (m.soldOut held r) (m.realized held r outage) m.tick)).slot id).core = _
  rcases eq_or_ne id held.positionId with rfl | hne
  · rw [setSlot_slot, finishClose_core]
    simp
  · rw [setSlot_core_of_ne m _ hne]
    simp only [hne, false_and, if_false]
    rfl

theorem observeBook_slot (m : ExitMonitor) (book : OrderBook) (id : ℕ) :
    ((m.observeBook book).slot id).position.thinStreak = (m.slot id).position.thinStreak ∧
      ((m.observeBook book).slot id).position.thinStamp = (m.slot id).position.thinStamp := by
  have hraise : ∀ (p : PositionState) (bid : ℚ),
      (raisePeak p bid).thinStreak = p.thinStreak ∧ (raisePeak p bid).thinStamp = p.thinStamp := by
    intro p bid
    unfold raisePeak
    split_ifs <;> exact ⟨rfl, rfl⟩
  unfold ExitMonitor.observeBook
  cases guardedMark book.bids with
  | none => exact ⟨rfl, rfl⟩
  | some mark =>
    by_cases hid : id ∈ m.watch book.tokenId
    · simpa [ExitMonitor.slot, Slot.position, hid] using hraise _ _
    · simp [ExitMonitor.slot, Slot.position, hid]

end OpenPoly
