import OpenPoly.Proofs.ExitRun
import OpenPoly.Proofs.Holdings
import OpenPoly.Proofs.Peaks
import OpenPoly.Proofs.Tolerance
import OpenPoly.Spec.Reports

/-! What the two monitors report of a close is what the ledger booked, as long as
each sells no more than the row still has. -/

namespace OpenPoly

open Results Transition

theorem attempt_buys {db : Db} {i : ℕ} {p : PositionRow} (h : db.get i = some p) (e : Attempt) :
    (db.attempt e).fillsOf i .buy = db.fillsOf i .buy := by
  rcases attempt_effect db e with heq | ⟨a, -, -, heq⟩ | ⟨j, a, r, pos, -, -, -, hd⟩ |
    ⟨j, a, r, pos, -, -, -, hd⟩
  · rw [heq]
  · rw [heq, Db.opened_fillsOf, if_neg]
    rintro ⟨rfl, -⟩
    exact nextId_notMem _ (Db.known_of_get h)
  · rw [hd.fillsOf, if_neg fun hsell => by cases hsell.2]
  · rw [hd.fillsOf, if_neg fun hsell => by cases hsell.2]

theorem soldRow_entry (db : Db) (pos : PositionRow) (a : SellArgs) :
    (db.soldRow pos a).avgEntryPrice = pos.avgEntryPrice := by
  unfold Db.soldRow
  dsimp only
  split_ifs <;> rfl

theorem realizedGain_ok {db : Db} {i : ℕ} {price qty fee gain : ℚ} :
    db.realizedGain i price qty fee = .ok gain ↔
      ∃ p, db.get i = some p ∧ gain = db.realizedGainOf p price qty fee := by
  unfold Db.realizedGain
  cases db.get i with
  | none => simp
  | some p => simp [eq_comm]

/-- A gain depends on the entry price and the buys of a row, which no write changes. -/
theorem realizedGain_attempt {db : Db} {i : ℕ} {price qty fee gain : ℚ}
    (h : db.realizedGain i price qty fee = .ok gain) (e : Attempt) :
    (db.attempt e).realizedGain i price qty fee = .ok gain := by
  obtain ⟨p, hp, rfl⟩ := realizedGain_ok.mp h
  have hid := (Db.get_mem hp).2
  have hkept : ∀ p' : PositionRow, p'.id = p.id → p'.avgEntryPrice = p.avgEntryPrice →
      db.realizedGainOf p price qty fee = (db.attempt e).realizedGainOf p' price qty fee := by
    intro p' hid' hentry
    simp only [Db.realizedGainOf, Db.buyFeePerShare, hid', hid, hentry, attempt_buys hp e]
  refine realizedGain_ok.mpr ?_
  rcases attempt_get hp e with hsame | ⟨-, -, ⟨a, -, hrow⟩ | ⟨a, -, hrow⟩⟩
  · exact ⟨p, hsame, hkept p rfl rfl⟩
  · exact ⟨_, hrow, hkept _ rfl rfl⟩
  · exact ⟨_, hrow, hkept _ (soldRow_id _ _ _) (soldRow_entry _ _ _)⟩

theorem attempt_recordSell {db db' : Db} {i : ℕ} {a : SellArgs} {row : PositionRow}
    (h : db.recordSell i a = .ok (row, db')) : db.attempt ⟨.recordSell i a, none⟩ = db' := by
  simp [Db.attempt, Db.call, h, Except.map]

theorem attempt_closePosition {db db' : Db} {i : ℕ} {a : CloseArgs} {row : PositionRow}
    (h : db.closePosition i a = .ok (row, db')) : db.attempt ⟨.closePosition i a, none⟩ = db' := by
  simp [Db.attempt, Db.call, h, Except.map]

/-- A sell writes what some attempt writes. -/
theorem SellWrites.attempt {db db' : Db} {i : ℕ} {result : Except PyErr ExecResult}
    (h : SellWrites db i result db') : ∃ e, db' = db.attempt e := by
  rcases h with ⟨rfl, -⟩ | ⟨a, r, row, -, -, -, hsell⟩
  · exact ⟨⟨.recordSell i ⟨0, 0, 0, .manual, none, none, none, 0⟩, some .valueError⟩, rfl⟩
  · exact ⟨_, (attempt_recordSell hsell).symm⟩

theorem liveCall_attempt (s : LiveState) (c : LiveCall) : ∃ e, (liveCall s c).1.db = s.db.attempt e := by
  cases c with
  | sell c => exact (executeSell_writes s c).attempt
  | buy c =>
    rcases Executor.buy_cases (.live ⟨"", ""⟩) s.db c with ⟨hsame, -⟩ | ⟨a, held, -, hopen, -⟩
    · exact ⟨⟨.recordSell 0 ⟨0, 0, 0, .manual, none, none, none, 0⟩, some .valueError⟩, hsame⟩
    · refine ⟨⟨.openPosition a, none⟩, ?_⟩
      simp only [Db.attempt, Db.call, hopen, Except.map]
      rfl

theorem Disposal.booked {db db' : Db} {i : ℕ} {pos row : PositionRow} {fill : FillRow} {gain : ℚ}
    (h : Disposal db i pos row fill db') (hid : row.id = pos.id)
    (hrow : row.realizedPnl = some (pos.realizedPnl.getD 0 + gain)) : bookedOn db db' i = gain := by
  have hafter := h.get hid h.found
  rw [if_pos rfl] at hafter
  simp only [bookedOn, Db.accrued, hafter, h.found, Option.bind_some, hrow, Option.getD_some]
  ring

theorem soldRow_realized (db : Db) (pos : PositionRow) (a : SellArgs) :
    (db.soldRow pos a).realizedPnl =
      some (pos.realizedPnl.getD 0 + db.realizedGainOf pos a.sellPrice (min a.soldQty pos.qty) a.fee) := by
  unfold Db.soldRow
  dsimp only
  split_ifs <;> rfl

/-- A sell of no more than the row has books the gain of what it says it sold. -/
theorem recordSell_booked {db db' : Db} {i : ℕ} {a : SellArgs} {row : PositionRow}
    (h : db.recordSell i a = .ok (row, db'))
    (hqty : ∀ pos, db.get i = some pos → a.soldQty ≤ pos.qty) :
    db'.realizedGain i a.sellPrice a.soldQty a.fee = .ok (bookedOn db db' i) := by
  obtain ⟨pos, hd, rfl⟩ := recordSell_ok h
  rw [hd.booked (soldRow_id _ _ _) (soldRow_realized db pos a), min_eq_left (hqty pos hd.found)]
  have hbefore : db.realizedGain i a.sellPrice a.soldQty a.fee =
      .ok (db.realizedGainOf pos a.sellPrice a.soldQty a.fee) := realizedGain_ok.mpr ⟨pos, hd.found, rfl⟩
  have hafter := realizedGain_attempt hbefore ⟨.recordSell i a, none⟩
  rwa [attempt_recordSell h] at hafter

theorem closePosition_booked {db db' : Db} {i : ℕ} {a : CloseArgs} {row : PositionRow} {qty : ℚ}
    (h : db.closePosition i a = .ok (row, db'))
    (hqty : ∀ pos, db.get i = some pos → pos.status = .open → pos.qty = qty) :
    db'.realizedGain i a.sellPrice qty 0 = .ok (bookedOn db db' i) := by
  obtain ⟨pos, hd, rfl⟩ := closePosition_ok h
  rw [hd.booked rfl rfl, hqty pos hd.found hd.wasOpen]
  have hbefore : db.realizedGain i a.sellPrice qty 0 = .ok (db.realizedGainOf pos a.sellPrice qty 0) :=
    realizedGain_ok.mpr ⟨pos, hd.found, rfl⟩
  have hafter := realizedGain_attempt hbefore ⟨.closePosition i a, none⟩
  rwa [attempt_closePosition h] at hafter

/-- A sell that reports a fill has recorded it, at the price, quantity and fee it reports. -/
def Recorded (db : Db) (i : ℕ) (result : Except PyErr ExecResult) (db' : Db) : Prop :=
  ∀ r price, result = .ok r → r.fillPrice = some price →
    ∃ a row, db.recordSell i a = .ok (row, db') ∧ r.price = some a.sellPrice ∧ price = a.sellPrice ∧
      r.qty = some a.soldQty ∧ r.fee = a.fee

theorem recorded_skip (db db' : Db) (i : ℕ) {skip : ExecResult} (h : skip.filled = false) :
    Recorded db i (.ok skip) db' := by
  intro r price hr hprice
  obtain rfl := Except.ok.inj hr
  rw [fillPrice_unfilled h] at hprice
  cases hprice

theorem recorded_raise (db db' : Db) (i : ℕ) (exc : PyErr) : Recorded db i (.error exc) db' :=
  fun _ _ hr => by cases hr

theorem recorded_ok {db db' : Db} {i : ℕ} {a : SellArgs} {row : PositionRow} {restingOrderId : Option String}
    (h : db.recordSell i a = .ok (row, db')) :
    Recorded db i (.ok (.ok a.sellPrice a.soldQty i restingOrderId a.fee)) db' := by
  intro r price hr hprice
  obtain rfl := Except.ok.inj hr
  exact ⟨a, row, h, rfl, (Option.some.inj hprice).symm, rfl, rfl⟩

theorem paperSell_recorded (db : Db) (c : PaperSellCall) :
    Recorded db c.position.positionId (paperSell db c).result (paperSell db c).db := by
  unfold paperSell
  cases hfill : paperSellFill c with
  | error skip => exact recorded_skip _ _ _ (paperSellFill_skip hfill)
  | ok a =>
    dsimp only
    cases hw : writeOnce (db.recordSell c.position.positionId a) c.outage with
    | error exc => exact recorded_raise _ _ _ exc
    | ok r => exact recorded_ok (writeOnce_ok hw)

theorem executeSellUnguarded_recorded (db : Db) (c : SellCall) :
    Recorded db c.position.positionId (executeSellUnguarded db c).result (executeSellUnguarded db c).db := by
  unfold executeSellUnguarded
  cases hp : c.placement with
  | error skip => exact recorded_skip _ _ _ (sellPlacement_skip hp)
  | ok p =>
    dsimp only [placed]
    cases hf : orderFill p c.venue (some (c.estimate p.order.price)) with
    | error exc => exact recorded_raise _ _ _ exc
    | ok res =>
      cases res with
      | error skip => exact recorded_skip _ _ _ (orderFill_skip hf)
      | ok fill =>
        dsimp only [persistSell]
        cases hw : persistIrreversible
          (db.recordSell c.position.positionId (fill.sellArgs c.closeReason c.ts c.trigger))
            c.outage with
        | error exc => exact recorded_skip _ _ _ rfl
        | ok r => exact recorded_ok (persistIrreversible_ok hw)

theorem request_recorded (s : LiveState) (request : SellRequest) :
    Recorded s.db request.position.positionId (request.execute s).2 (request.execute s).1.db := by
  cases request with
  | paper c => exact paperSell_recorded s.db c
  | live c =>
    show Recorded s.db c.position.positionId (executeSell s c).2.result (executeSell s c).1.db
    unfold executeSell
    split
    · exact executeSellUnguarded_recorded s.db c
    · split_ifs
      · exact recorded_skip _ _ _ rfl
      · exact executeSellUnguarded_recorded s.db c

def Quiet (before after : List ExitDecision) : Prop :=
  ∃ rows, after = before ++ rows ∧ ∀ d ∈ rows, d.isOk = false

theorem Quiet.refl (log : List ExitDecision) : Quiet log log := ⟨[], by simp, by simp⟩

theorem Quiet.trans {log log' log'' : List ExitDecision} (h : Quiet log log') (h' : Quiet log' log'') :
    Quiet log log'' := by
  obtain ⟨rows, rfl, hrows⟩ := h
  obtain ⟨rows', rfl, hrows'⟩ := h'
  refine ⟨rows ++ rows', List.append_assoc .., fun d hd => ?_⟩
  exact (List.mem_append.mp hd).elim (hrows d) (hrows' d)

theorem quiet_write (s : Slot) {row : ExitDecision} (h : row.isOk = false) : Quiet s.log (s.write row).log :=
  ⟨[row], rfl, by simpa using h⟩

theorem quiet_holdOnce (s : Slot) (held : HeldPosition) (ts : ℚ) (reason : HoldReason) :
    Quiet s.log (s.holdOnce held ts reason).log := by
  unfold Slot.holdOnce
  split_ifs
  · exact .refl _
  · exact quiet_write _ rfl

theorem quiet_failOnce (s : Slot) (key : CloseFailure) {row : ExitDecision} (h : row.isOk = false) :
    Quiet s.log (s.failOnce key row).log := by
  unfold Slot.failOnce
  split_ifs
  · exact .refl _
  · exact quiet_write _ h

theorem trackThinStreak_log (s : Slot) (d : Option MarkDecision) : (s.trackThinStreak d).log = s.log := by
  unfold Slot.trackThinStreak
  split
  · dsimp only
    split_ifs <;> rfl
  · rfl

theorem decide_log (s : Slot) (exit : ExitSection) (held : HeldPosition) (book : OrderBook)
    (stamp : Option ℚ) (now : ℚ) : (s.decide exit held book stamp now).2.log = s.log := by
  unfold Slot.decide
  split <;> rfl

theorem quiet_conclude (s : Slot) (held : HeldPosition) (ts : ℚ) (g : Grounds) (d : Option MarkDecision) :
    Quiet s.log (s.conclude held ts g d).2.log := by
  unfold Slot.conclude
  dsimp only
  rw [← trackThinStreak_log s d]
  split
  · exact quiet_holdOnce _ held ts _
  · split
    · split_ifs
      · exact quiet_holdOnce _ held ts _
      · exact .refl _
    · split_ifs
      · exact quiet_write (s.trackThinStreak _).clearHolds rfl
      · exact quiet_write (s.trackThinStreak _).clearHolds rfl
      · exact .refl _

theorem quiet_act (s : Slot) (held : HeldPosition) (ts : ℚ) (g : Grounds) (d : MarkDecision) :
    Quiet s.log (s.act held ts g d).2.log := by
  unfold Slot.act
  split_ifs
  · exact .refl _
  · exact quiet_conclude s held ts g _

theorem quiet_evaluate (s : Slot) (exit : ExitSection) (held : HeldPosition) (ts : ℚ) (g : Grounds)
    (sight : Sight) : Quiet s.log (s.evaluate exit held ts g sight).2.log := by
  have hdecide : ∀ {c : CachedBook} {d : Option MarkDecision} {s' : Slot},
      s.decide exit held c.fetched.book (some c.fetchedAt) sight.now = (d, s') → s'.log = s.log := by
    intro c d s' hd
    rw [← decide_log s exit held c.fetched.book (some c.fetchedAt) sight.now, hd]
  have hpath := evaluate_path s exit held ts g sight
  generalize s.evaluate exit held ts g sight = out at hpath ⊢
  cases hpath with
  | dust =>
    unfold Slot.noteDust
    split_ifs
    · exact .refl _
    · exact quiet_write _ rfl
  | noBook => exact quiet_holdOnce _ held ts _
  | noBids => exact .refl _
  | unmarked _ _ _ hd => exact hdecide hd ▸ quiet_conclude _ held ts g _
  | kept _ _ hd => exact hdecide hd ▸ quiet_conclude _ held ts g _
  | young _ _ hd => exact hdecide hd ▸ quiet_act _ held ts g _
  | old _ _ hd => exact hdecide hd ▸ .refl _

theorem quiet_confirm (s : Slot) (exit : ExitSection) (held : HeldPosition) (ts : ℚ) (g : Grounds)
    (d : MarkDecision) (r : Refetched) : Quiet s.log (s.confirm exit held ts g d r).2.log := by
  have hdecide : ∀ {c : CachedBook} {d' : Option MarkDecision} {s' : Slot},
      s.decide exit held c.fetched.book (some c.fetchedAt) r.now = (d', s') → s'.log = s.log := by
    intro c d' s' hd
    rw [← decide_log s exit held c.fetched.book (some c.fetchedAt) r.now, hd]
  have hpath := confirm_path s exit held ts g d r
  generalize s.confirm exit held ts g d r = out at hpath ⊢
  cases hpath with
  | held => exact quiet_holdOnce _ held ts _
  | asIs => exact quiet_act _ held ts g _
  | unmarked _ hd => exact hdecide hd ▸ quiet_act _ held ts g _
  | marked _ hd => exact hdecide hd ▸ quiet_act _ held ts g _

theorem quiet_noteFailure (s : Slot) (held : HeldPosition) (ts clock : ℚ) (order : SellOrder)
    (r : ExecResult) (tick : ℚ) : Quiet s.log (s.noteFailure held ts clock order r tick).log := by
  unfold Slot.noteFailure
  dsimp only
  split_ifs
  · exact quiet_failOnce (s.recordCloseFailure clock order.trigger (some order.floor) tick) _ rfl
  · exact quiet_failOnce (s.recordCloseFailure clock order.trigger (some order.floor) tick) _ rfl

/-- A finished sell reports a close where it filled, and what `_realized` read of it. -/
theorem finishClose_log (s : Slot) (held : HeldPosition) (ts clock : ℚ) (order : SellOrder)
    (r : ExecResult) (closed : Bool) (realized tick : ℚ) :
    Quiet s.log (s.finishClose held ts clock order r closed realized tick).log ∨
      r.fillPrice.isSome = true ∧ ∃ d, d.isOk = true ∧ d.realizedPnl = some realized ∧
        (s.finishClose held ts clock order r closed realized tick).log = s.log ++ [d] := by
  unfold Slot.finishClose
  dsimp only
  cases r.fillPrice with
  | none => exact .inl (quiet_noteFailure (s.put _) held ts clock order r tick)
  | some price =>
    refine .inr ⟨rfl, { held.row ts .ok with
      trigger := some order.trigger
      returnPct := order.returnPct
      peakPrice := some order.peakPrice
      fillPrice := some price
      realizedPnl := some realized
      reason := some (.closed order.trigger) }, rfl, rfl, ?_⟩
    cases closed <;> rfl

theorem advance_log (m : ExitMonitor) (ts : ℚ) (held : HeldPosition) (rest : List HeldPosition)
    (next : Next × Slot) : (m.advance ts held rest next).log = next.2.log := by
  unfold ExitMonitor.advance
  cases next.1 <;> rfl

/-- An event of the exit monitor reports no close, or finishes a sell that filled. -/
theorem exit_log {m m' : ExitMonitor} {e : ExitEvent} (h : m.step e = some m') :
    Quiet m.log m'.log ∨
      ∃ clock outage ts held order r rest d, e = .finish clock outage ∧
        m.phase = .sold ts held order (.ok r) rest ∧ r.fillPrice.isSome = true ∧ d.isOk = true ∧
        d.realizedPnl = some (m.realized held r outage) ∧ m'.log = m.log ++ [d] := by
  cases step_stepped h with
  | @evaluate sight clock ts held rest =>
    refine .inl ?_
    rw [advance_log]
    exact quiet_evaluate (m.slot held.positionId) m.exit held ts _ sight
  | @refetched r clock ts held d rest =>
    refine .inl ?_
    rw [advance_log]
    exact quiet_confirm (m.slot held.positionId) m.exit held ts _ d r
  | raised => exact .inl ⟨[_], rfl, by simp [ExitDecision.isOk, HeldPosition.row]⟩
  | @finish clock outage ts held order r rest hphase =>
    let m₁ : ExitMonitor := { m with closing := Registry.discard held.positionId m.closing }
    rcases finishClose_log (m.slot held.positionId) held ts clock order r (m₁.soldOut held r)
      (m.realized held r outage) m.tick with hquiet | ⟨hfill, d, hok, hpnl, hlog⟩
    · exact .inl hquiet
    · exact .inr ⟨clock, outage, ts, held, order, r, rest, d, rfl, hphase, hfill, hok, hpnl, hlog⟩
  | observe =>
    refine .inl ?_
    unfold ExitMonitor.observeBook
    split <;> exact .refl _
  | _ => exact .inl (.refl _)

/-- A sell that waits to be finished has just been run, or was waiting before; and
then the ledger has been written once at most. -/
theorem exit_sold {m m' : ExitMonitor} {e : ExitEvent} (h : m.step e = some m') {ts : ℚ}
    {held : HeldPosition} {order : SellOrder} {r : ExecResult} {rest : List HeldPosition}
    (hsold : m'.phase = .sold ts held order (.ok r) rest) :
    (∃ request, e = .execute request ∧ request.position = held ∧
      request.execute m.live = (m'.live, .ok r)) ∨
    (∀ request, e ≠ .execute request) ∧ m.phase = .sold ts held order (.ok r) rest ∧
      ∃ a, m'.live.db = m.live.db.attempt a := by
  have hidle : ∃ a, m.live.db = m.live.db.attempt a :=
    ⟨⟨.recordSell 0 ⟨0, 0, 0, .manual, none, none, none, 0⟩, some .valueError⟩, rfl⟩
  cases step_stepped h with
  | @execute request ts' held' order' rest' hphase hfor =>
    obtain ⟨-, rfl, -, hr, -⟩ : ts' = ts ∧ held' = held ∧ order' = order ∧
        (request.execute m.live).2 = .ok r ∧ rest' = rest := by simpa using hsold
    refine .inl ⟨request, rfl, ?_, by rw [← hr]⟩
    cases request <;> exact (of_decide_eq_true hfor).1
  | @evaluate sight clock ts' held' rest' =>
    unfold ExitMonitor.advance at hsold
    split at hsold <;> cases hsold
  | @refetched r' clock ts' held' d rest' =>
    unfold ExitMonitor.advance at hsold
    split at hsold <;> cases hsold
  | observe =>
    refine .inr ⟨fun _ => by simp, ?_⟩
    unfold ExitMonitor.observeBook at hsold ⊢
    split at hsold <;> exact ⟨hsold, hidle⟩
  | ledger => exact .inr ⟨fun _ => by simp, hsold, _, rfl⟩
  | trade => exact .inr ⟨fun _ => by simp, hsold, liveCall_attempt _ _⟩
  | replaceExit => exact .inr ⟨fun _ => by simp, hsold, hidle⟩
  | mark => exact .inr ⟨fun _ => by simp, hsold, hidle⟩
  | clear => exact .inr ⟨fun _ => by simp, hsold, hidle⟩
  | readOpens => cases hsold
  | sweep => cases hsold
  | raised => cases hsold
  | finish => cases hsold
  | tickDone => cases hsold

/-- No more than the row has is sold, and the position a settlement tick closes has
the quantity it was read with; the gain of a sell can be read back. -/
def Reports.sellsWhatIsThere (s : Reports) : ReportEvent → Bool
  | .exit (.execute request) =>
    match (request.execute s.exit.live).2 with
    | .ok r => r.fillPrice.isNone ||
        (s.db.get request.position.positionId).all fun row => r.soldOf request.position ≤ row.qty
    | .error _ => true
  | .exit (.finish _ outage) => outage.isNone
  | .settle held _ _ =>
    (s.db.get held.positionId).all fun row => row.status ≠ .open ∨ row.qty = held.qty
  | _ => true

theorem sellsWhatIsThere_execute {s : Reports} {request : SellRequest} {r : ExecResult} {row : PositionRow}
    (h : s.sellsWhatIsThere (.exit (.execute request)) = true) (hr : (request.execute s.exit.live).2 = .ok r)
    (hfill : r.fillPrice.isSome = true) (hrow : s.db.get request.position.positionId = some row) :
    r.soldOf request.position ≤ row.qty := by
  have hnone : r.fillPrice.isNone = false := by simpa using hfill
  simpa [Reports.sellsWhatIsThere, hr, hnone, hrow] using h

theorem sellsWhatIsThere_settle {s : Reports} {held : HeldPosition} {prices : ℚ × ℚ} {ts : ℚ}
    {row : PositionRow} (h : s.sellsWhatIsThere (.settle held prices ts) = true)
    (hrow : s.db.get held.positionId = some row) (ho : row.status = .open) : row.qty = held.qty := by
  simpa [Reports.sellsWhatIsThere, hrow, ho] using h

/-- A sell that waits to be finished is about to be reported as it was booked. -/
def Reports.Pending (s : Reports) : Prop :=
  ∀ ts held order r rest, s.exit.phase = .sold ts held order (.ok r) rest → r.fillPrice.isSome = true →
    s.db.realizedGain held.positionId (r.price.getD 0) (r.soldOf held) r.fee = .ok s.lastSell

/-- The rows that report a close are those paired with what was booked, and report that. -/
structure Reports.Agree (s : Reports) : Prop where
  exitRows : s.exitRows.map Prod.fst = s.exit.log.filter ExitDecision.isOk
  settlementRows : s.settlementRows.map Prod.fst = s.settlementLog.filter SettlementDecision.isOk
  exitBooked : ∀ x ∈ s.exitRows, x.1.realizedPnl = some x.2
  settlementBooked : ∀ x ∈ s.settlementRows, x.1.realizedPnl = some x.2

@[simp] theorem newOk_append {α : Type} (isOk : α → Bool) (log rows : List α) :
    newOk isOk log (log ++ rows) = rows.filter isOk := by
  simp [newOk]

theorem filter_quiet {rows : List ExitDecision} (h : ∀ d ∈ rows, d.isOk = false) :
    rows.filter ExitDecision.isOk = [] :=
  List.filter_eq_nil_iff.mpr fun d hd => by simp [h d hd]

theorem pending_exit {s t : Reports} {env : SettlementEnv} {e : ExitEvent} (h : s.Pending)
    (hg : s.sellsWhatIsThere (.exit e) = true) (hs : reportStep env s (.exit e) = some t) : t.Pending := by
  obtain ⟨m, hm, rfl⟩ := Option.map_eq_some_iff.mp hs
  intro ts held order r rest hphase hfill
  rcases exit_sold hm hphase with ⟨request, rfl, rfl, hrun⟩ | ⟨hne, hbefore, a, hdb⟩
  · obtain ⟨price, hprice⟩ := Option.isSome_iff_exists.mp hfill
    have hrec := request_recorded s.exit.live request
    rw [hrun] at hrec
    obtain ⟨a, row, hsell, hpriced, -, hqty, hfee⟩ := hrec r price rfl hprice
    have hsold : r.soldOf request.position = a.soldQty := by simp [ExecResult.soldOf, hqty]
    rw [hpriced, Option.getD_some, hsold, hfee]
    exact recordSell_booked hsell fun pos hpos =>
      hsold ▸ sellsWhatIsThere_execute hg (by rw [hrun]) hfill hpos
  · have hlast : s.sold m e = s.lastSell := by
      cases e with
      | execute request => exact absurd rfl (hne request)
      | _ => rfl
    show m.live.db.realizedGain held.positionId _ _ _ = .ok (s.sold m e)
    rw [hlast, hdb]
    exact realizedGain_attempt (h ts held order r rest hbefore hfill) a

theorem agree_exit {s t : Reports} {env : SettlementEnv} {e : ExitEvent} (h : s.Agree) (hp : s.Pending)
    (hg : s.sellsWhatIsThere (.exit e) = true) (hs : reportStep env s (.exit e) = some t) : t.Agree := by
  obtain ⟨m, hm, rfl⟩ := Option.map_eq_some_iff.mp hs
  rcases exit_log hm with ⟨rows, hlog, hquiet⟩ |
    ⟨clock, outage, ts, held, order, r, rest, d, rfl, hphase, hfill, hok, hpnl, hlog⟩
  · refine ⟨?_, h.settlementRows, ?_, h.settlementBooked⟩
    · simp [hlog, filter_quiet hquiet, h.exitRows]
    · simpa [hlog, filter_quiet hquiet] using h.exitBooked
  · have hrealized : s.exit.realized held r outage = s.lastSell := by
      obtain rfl : outage = none := Option.isNone_iff_eq_none.mp hg
      unfold ExitMonitor.realized
      dsimp only [writeOnce]
      rw [show s.exit.live.db.realizedGain held.positionId (r.price.getD 0) (r.soldOf held) r.fee =
        .ok s.lastSell from hp ts held order r rest hphase hfill]
    refine ⟨?_, h.settlementRows, ?_, h.settlementBooked⟩
    · simp [hlog, hok, h.exitRows]
    · intro x hx
      simp only [hlog, newOk_append, hok, List.filter_cons_of_pos, List.filter_nil, List.map_cons,
        List.map_nil, List.mem_append, List.mem_singleton] at hx
      rcases hx with hx | rfl
      · exact h.exitBooked x hx
      · rw [hpnl, hrealized]

theorem settle_step {s t : Reports} {env : SettlementEnv} {held : HeldPosition} {prices : ℚ × ℚ} {ts : ℚ}
    (h : s.Agree) (hp : s.Pending) (hg : s.sellsWhatIsThere (.settle held prices ts) = true)
    (hs : reportStep env s (.settle held prices ts) = some t) : t.Agree ∧ t.Pending := by
  unfold reportStep at hs
  dsimp only at hs
  split_ifs at hs with hread
  cases hstep : settlePosition (s.settlementEnv env) prices ts
      { db := s.db, log := s.settlementLog, reads := 0, processed := [] } held with
  | error e => simp [hstep] at hs
  | ok t' =>
    simp only [hstep, Option.some.injEq] at hs
    subst hs
    cases settles_of_ok hstep with
    | @left d _ notOk =>
      have hnot : d.isOk = false := decide_eq_false notOk
      refine ⟨⟨h.exitRows, ?_, h.exitBooked, ?_⟩, ?_⟩
      · simp [SettlementTick.record, hnot, h.settlementRows]
      · simpa [SettlementTick.record, hnot] using h.settlementBooked
      · exact hp
    | @closed d price gain row db _ close gained _ ok pnl =>
      have hok : d.isOk = true := decide_eq_true ok
      have hbooked := closePosition_booked close fun _ => sellsWhatIsThere_settle hg
      have hgain : gain = bookedOn s.db db held.positionId :=
        Except.ok.inj (gained.symm.trans hbooked)
      refine ⟨⟨h.exitRows, ?_, h.exitBooked, ?_⟩, ?_⟩
      · simp [SettlementTick.record, hok, h.settlementRows]
      · intro x hx
        simp only [SettlementTick.record, newOk_append, hok, List.filter_cons_of_pos, List.filter_nil, List.map_cons,
          List.map_nil, List.mem_append, List.mem_singleton] at hx
        rcases hx with hx | rfl
        · exact h.settlementBooked x hx
        · rw [pnl, hgain]
      · intro ts' held' order r rest hphase hfill
        show db.realizedGain _ _ _ _ = _
        rw [← attempt_closePosition close]
        exact realizedGain_attempt (hp ts' held' order r rest hphase hfill) _

theorem reports_step {s t : Reports} {env : SettlementEnv} {e : ReportEvent} (h : s.Agree ∧ s.Pending)
    (hg : s.sellsWhatIsThere e = true) (hs : reportStep env s e = some t) : t.Agree ∧ t.Pending := by
  cases e with
  | exit e => exact ⟨agree_exit h.1 h.2 hg hs, pending_exit h.2 hg hs⟩
  | settle held prices ts => exact settle_step h.1 h.2 hg hs
  | readOpens =>
    simp only [reportStep] at hs
    split at hs <;> cases hs
    exact ⟨⟨h.1.exitRows, h.1.settlementRows, h.1.exitBooked, h.1.settlementBooked⟩, h.2⟩
  | settled =>
    simp only [reportStep] at hs
    split_ifs at hs
    cases hs
    exact ⟨⟨h.1.exitRows, h.1.settlementRows, h.1.exitBooked, h.1.settlementBooked⟩, h.2⟩

theorem reports_start (exit : ExitSection) (live : LiveState) (snapshots : Option (List OrderBookSnapshot)) :
    (Reports.start exit live snapshots).Agree ∧ (Reports.start exit live snapshots).Pending := by
  have hlog : (ExitMonitor.boot exit live snapshots).log = [] := by cases snapshots <;> rfl
  have hphase : (ExitMonitor.boot exit live snapshots).phase = .idle := by cases snapshots <;> rfl
  refine ⟨⟨?_, rfl, by simp [Reports.start], by simp [Reports.start]⟩, ?_⟩
  · rw [Reports.start, hlog]
    rfl
  · intro ts held order r rest hsold
    cases hphase.symm.trans hsold

/-- In every interleaving of the two monitors with each other and with whatever else
writes the ledger, where no sell sells more than its row has and no settled position
has changed since the tick read it, each row that reports a close reports what was booked. -/
theorem reports_agree {env : SettlementEnv} {exit : ExitSection} {live : LiveState}
    {snapshots : Option (List OrderBookSnapshot)} {es : List ReportEvent} {s : Reports}
    (h : Run (guarded (fun s e => s.sellsWhatIsThere e = true) fun s e t => reportStep env s e = some t)
      (Reports.start exit live snapshots) es s) : s.Agree :=
  (@Run.invariant _ _ _ _ _ _ (fun s : Reports => s.Agree ∧ s.Pending) (fun _ _ _ hinv hstep => reports_step hinv hstep.1 hstep.2) h
    (reports_start exit live snapshots)).1

def reportLive : LiveState := ⟨Db.empty.opened sampleOpen, fun _ => none⟩

def reportStart : Reports := .start (.v1 defaultStop) reportLive none

def reportedStep (s : Reports) (e : ReportEvent) : Option Reports := reportStep sampleSettlementEnv s e

/-- The stop at 0.30, where `depth` shares are bid for. -/
def stopSell (depth : ℚ) : SellRequest :=
  .paper { catalog := ⟨fun _ => none, fun _ => some ⟨"t1", 30, [(3 / 10, depth)], []⟩⟩
           gone := fun _ => false
           usable := fun _ => true
           position := (openRow 1 sampleOpen).toHeld
           closeReason := .stopLoss
           ts := 30
           trigger := some Trigger.stopLoss.name
           floorPrice := some (3 / 10) }

/-- Four shares are stopped out, with a settlement tick under way that then pays out the rest. -/
def stoppedAndSettled : List ReportEvent :=
  [.exit (.readOpens 30), .exit .sweep, .exit (.evaluate (bidSight (3 / 10) 30) 30),
    .exit (.execute (stopSell 4)), .readOpens, .exit (.finish 30 none), .exit .tickDone,
    .settle { (openRow 1 sampleOpen).toHeld with qty := 6 } (1, 0) 40, .settled]

def Reports.figures (s : Reports) : List (Option ℚ × ℚ) :=
  s.exitRows.map (fun x => (x.1.realizedPnl, x.2)) ++ s.settlementRows.map fun x => (x.1.realizedPnl, x.2)

theorem Reports.Agree.figures {s : Reports} (h : s.Agree) : ∀ x ∈ s.figures, x.1 = some x.2 := by
  intro x hx
  simp only [Reports.figures, List.mem_append, List.mem_map] at hx
  rcases hx with ⟨y, hy, rfl⟩ | ⟨y, hy, rfl⟩
  · exact h.exitBooked y hy
  · exact h.settlementBooked y hy

theorem reports_agree_sample :
    ∃ s, Run (fun s e t => reportedStep s e = some t) reportStart stoppedAndSettled s ∧
      s.figures = [(some (-(12 / 25)), -(12 / 25)), (some (87 / 25), 87 / 25)] ∧ s.Agree := by
  have hread : (stoppedAndSettled.foldlM (fun (s : Reports) e =>
      if s.sellsWhatIsThere e then reportedStep s e else none) reportStart).map Reports.figures =
        some [(some (-(12 / 25) : ℚ), (-(12 / 25) : ℚ)), (some (87 / 25 : ℚ), (87 / 25 : ℚ))] := by
    decide +kernel
  obtain ⟨s, hs, hfigures⟩ := Option.map_eq_some_iff.mp hread
  have hrun : Run (guarded (fun s e => s.sellsWhatIsThere e = true) fun s e t => reportedStep s e = some t)
      reportStart stoppedAndSettled s := run_checkedM hs
  exact ⟨s, hrun.mono fun _ _ _ hstep => hstep.2, hfigures, reports_agree hrun⟩

def handSell : List ReportEvent :=
  [.exit (.mark 1), .exit (.ledger ⟨.recordSell 1 (sampleSell 4), none⟩), .exit (.clear 1)]

def settledStale : List ReportEvent :=
  [.readOpens] ++ handSell ++ [.settle (openRow 1 sampleOpen).toHeld (1, 0) 40]

/-- Sold between the exit tick's reading of the open positions and its stop. -/
def stoppedStale : List ReportEvent :=
  [.exit (.readOpens 30), .exit .sweep] ++ handSell ++
    [.exit (.evaluate (bidSight (3 / 10) 30) 30), .exit (.execute (stopSell 20)), .exit (.finish 30 none)]

theorem disagrees {es : List ReportEvent} {logged booked : ℚ} (hne : logged ≠ booked)
    (hread : (es.foldlM reportedStep reportStart).map Reports.figures = some [(some logged, booked)]) :
    ∃ s, Run (fun s e t => reportedStep s e = some t) reportStart es s ∧
      s.figures = [(some logged, booked)] ∧ ¬ s.Agree := by
  obtain ⟨s, hs, hfigures⟩ := Option.map_eq_some_iff.mp hread
  refine ⟨s, run_foldlM _ hs, hfigures, fun h => hne ?_⟩
  have hmem : (some logged, booked) ∈ s.figures := hfigures ▸ List.mem_singleton_self _
  exact Option.some.inj (h.figures _ hmem)

/-- The settlement tick reports the payout of the ten shares it read, where the row is
booked that of six; the exit tick the sale of the ten it listed. -/
theorem reports_disagree :
    (∃ s, Run (fun s e t => reportedStep s e = some t) reportStart settledStale s ∧
      s.figures = [(some (29 / 5), 87 / 25)] ∧ ¬ s.Agree) ∧
    ∃ s, Run (fun s e t => reportedStep s e = some t) reportStart stoppedStale s ∧
      s.figures = [(some (-(6 / 5)), -(18 / 25))] ∧ ¬ s.Agree :=
  ⟨disagrees (by norm_num) (by decide +kernel), disagrees (by norm_num) (by decide +kernel)⟩

end OpenPoly
