import OpenPoly.Proofs.Booked
import OpenPoly.Proofs.PaperSell
import OpenPoly.Proofs.RestingSell
import OpenPoly.Spec.ExitMonitor

/-! What a write of the ledger leaves of the open positions: they only shrink,
and a sell that reports all that was held closes the row. -/

namespace OpenPoly

/-- Whatever is open after the write is of a new id, or was open before and no
smaller. -/
structure Shrinks (db db' : Db) : Prop where
  ids : (db.positions.map PositionRow.id).Nodup → (db'.positions.map PositionRow.id).Nodup
  known : ∀ i ∈ db.positions.map PositionRow.id, i ∈ db'.positions.map PositionRow.id
  opens : ∀ i row', db'.get i = some row' → row'.status = .open →
    i ∉ db.positions.map PositionRow.id ∨
      ∃ row, db.get i = some row ∧ row.status = .open ∧ row'.qty ≤ row.qty

theorem Shrinks.refl (db : Db) : Shrinks db db :=
  ⟨id, fun _ h => h, fun _ row hget ho => .inr ⟨row, hget, ho, le_rfl⟩⟩

theorem Db.get_of_known {db : Db} {i : ℕ} (h : i ∈ db.positions.map PositionRow.id) :
    ∃ row, db.get i = some row := by
  obtain ⟨row, hrow, rfl⟩ := List.mem_map.mp h
  cases hget : db.get row.id with
  | none => simpa using List.find?_eq_none.mp hget row hrow
  | some found => exact ⟨found, rfl⟩

theorem Db.known_of_get {db : Db} {i : ℕ} {row : PositionRow} (h : db.get i = some row) :
    i ∈ db.positions.map PositionRow.id := by
  obtain ⟨hmem, hid⟩ := Db.get_mem h
  exact hid ▸ List.mem_map_of_mem hmem

theorem Disposal.shrinks {db db' : Db} {i : ℕ} {pos row : PositionRow} {fill : FillRow}
    (h : Disposal db i pos row fill db') (hid : row.id = pos.id)
    (hrow : row.status = .open → row.qty ≤ pos.qty) :
    Shrinks db db' := by
  refine ⟨fun hnodup => h.ids ▸ hnodup, fun j hj => h.ids ▸ hj, fun j row' hget ho => .inr ?_⟩
  have hknown : j ∈ db.positions.map PositionRow.id := h.ids ▸ Db.known_of_get hget
  obtain ⟨p, hp⟩ := Db.get_of_known hknown
  rcases h.get_cases hid hp with hsame | ⟨-, rfl, hnew⟩
  · obtain rfl : p = row' := Option.some.inj (hsame.symm.trans hget)
    exact ⟨p, hp, ho, le_rfl⟩
  · obtain rfl : row = row' := Option.some.inj (hnew.symm.trans hget)
    exact ⟨pos, hp, h.wasOpen, hrow ho⟩

def Call.SellsSome (c : Call) : Prop := ∀ i a, c = .recordSell i a → 0 < a.soldQty

theorem Call.Positive.sellsSome {c : Call} (h : c.Positive) : c.SellsSome := by
  rintro i a rfl
  exact h

theorem attempt_shrinks {db : Db} {e : Attempt} (he : e.call.SellsSome) :
    Shrinks db (db.attempt e) := by
  have hids : (db.positions.map PositionRow.id).Nodup →
      ((db.attempt e).positions.map PositionRow.id).Nodup := fun h => attempt_ids h e
  rcases attempt_effect db e with heq | ⟨a, -, -, heq⟩ | ⟨i, a, r, pos, -, -, -, hd⟩ |
    ⟨i, a, r, pos, -, hc, -, hd⟩
  · rw [heq]
    exact .refl db
  · rw [heq] at hids ⊢
    refine ⟨hids, fun i hi => ?_, fun i row' hget ho => ?_⟩
    · rw [Db.opened, Db.addFill_positions, List.map_append]
      exact List.mem_append_left _ hi
    · by_cases hi : i ∈ db.positions.map PositionRow.id
      · obtain ⟨row, hrow⟩ := Db.get_of_known hi
        obtain rfl : row = row' := Option.some.inj ((Db.get_opened hrow a).symm.trans hget)
        exact .inr ⟨row, hrow, ho, le_rfl⟩
      · exact .inl hi
  · exact hd.shrinks rfl fun ho => by cases ho
  · refine hd.shrinks (soldRow_id _ _ _) fun ho => ?_
    by_cases hres : pos.qty - min a.soldQty pos.qty < minSellableQty
    · rw [soldRow_closed hres] at ho
      cases ho
    · rw [Db.soldRow, if_neg hres]
      refine sub_le_self _ (le_min (he i a hc).le ?_)
      -- with nothing held the residual would be nothing, and the row closed
      by_contra hneg
      have hmin : min a.soldQty pos.qty = pos.qty :=
        min_eq_right ((not_le.mp hneg).le.trans (he i a hc).le)
      rw [hmin, sub_self] at hres
      exact hres (by norm_num [minSellableQty])

/-- What a sell of `i` does to the ledger: nothing, and it is no fill, or it sells
the quantity that it reports. -/
def SellWrites (db : Db) (i : ℕ) (result : Except PyErr ExecResult) (db' : Db) : Prop :=
  (db' = db ∧ ∀ r, result = .ok r → r.fillPrice = none) ∨
    ∃ a r row, 0 < a.soldQty ∧ result = .ok r ∧ r.qty = some a.soldQty ∧
      db.recordSell i a = .ok (row, db')

theorem SellWrites.shrinks {db db' : Db} {i : ℕ} {result : Except PyErr ExecResult}
    (h : SellWrites db i result db') : Shrinks db db' := by
  rcases h with ⟨rfl, -⟩ | ⟨a, r, row, hpos, -, -, hsell⟩
  · exact .refl db'
  · have hattempt : db.attempt ⟨.recordSell i a, none⟩ = db' := by
      simp [Db.attempt, Db.call, hsell, Except.map]
    rw [← hattempt]
    refine attempt_shrinks fun j b hb => ?_
    cases hb
    exact hpos

/-- A fill of no less than the row has closes it. -/
theorem SellWrites.closed {db db' : Db} {i : ℕ} {r : ExecResult} {held : ℚ}
    (h : SellWrites db i (.ok r) db') (hfill : r.fillPrice.isSome = true)
    (hqty : ∀ row, db.get i = some row → row.status = .open → row.qty ≤ held)
    (hsold : held ≤ r.qty.getD held) :
    ∀ row, db'.get i = some row → row.status ≠ .open := by
  rcases h with ⟨-, hnone⟩ | ⟨a, r', row, -, hr, hsome, hsell⟩
  · rw [hnone r rfl] at hfill
    cases hfill
  · obtain rfl := Except.ok.inj hr
    rw [hsome, Option.getD_some] at hsold
    obtain ⟨pos, hd, hrow⟩ := recordSell_ok hsell
    have hle : pos.qty ≤ a.soldQty := (hqty pos hd.found hd.wasOpen).trans hsold
    have hclosed : row.status = .closed := by
      rw [hrow]
      refine soldRow_closed ?_
      rw [min_eq_right hle, sub_self]
      norm_num [minSellableQty]
    intro row' hget ho
    have hid : row.id = pos.id := hrow ▸ soldRow_id _ _ _
    have hnew := hd.get hid hd.found
    rw [if_pos rfl] at hnew
    obtain rfl : row = row' := Option.some.inj (hnew.symm.trans hget)
    rw [hclosed] at ho
    cases ho

theorem fillPrice_unfilled {r : ExecResult} (h : r.filled = false) : r.fillPrice = none := by
  simp [ExecResult.fillPrice, h]

theorem sellWrites_skip (db : Db) (i : ℕ) {skip : ExecResult} (h : skip.filled = false) :
    SellWrites db i (.ok skip) db := by
  refine .inl ⟨rfl, fun r hr => ?_⟩
  obtain rfl := Except.ok.inj hr
  exact fillPrice_unfilled h

theorem sellWrites_raise (db : Db) (i : ℕ) (exc : PyErr) : SellWrites db i (.error exc) db :=
  .inl ⟨rfl, fun r hr => by cases hr⟩

theorem writeOnce_ok {α : Type} {write : Except PyErr α} {outage : Option PyErr} {x : α}
    (h : writeOnce write outage = .ok x) : write = .ok x := by
  unfold writeOnce at h
  split at h
  · cases h
  · exact h

theorem paperSellFill_pos {c : PaperSellCall} {a : SellArgs} (h : paperSellFill c = .ok a) :
    0 < a.soldQty := by
  obtain ⟨book, best, hsold⟩ := paperSellFill_ok h
  exact hsold.placed

theorem paperSell_writes (db : Db) (c : PaperSellCall) :
    SellWrites db c.position.positionId (paperSell db c).result (paperSell db c).db := by
  unfold paperSell
  cases hfill : paperSellFill c with
  | error skip => exact sellWrites_skip db _ (paperSellFill_skip hfill)
  | ok a =>
    dsimp only
    cases hw : writeOnce (db.recordSell c.position.positionId a) c.outage with
    | error exc => exact sellWrites_raise db _ exc
    | ok r => exact .inr ⟨a, _, r.1, paperSellFill_pos hfill, rfl, rfl, writeOnce_ok hw⟩

/-- What an order is booked for is never nothing. -/
theorem orderFill_pos {p : Placement} {v : VenueAnswers} {estimatePrice : Option (ℚ → ℚ)}
    {fill : Fill} (hsize : 0 ≤ p.order.size) (h : orderFill p v estimatePrice = .ok (.ok fill)) :
    0 < fill.qty := by
  unfold orderFill at h
  cases hpost : postOrder v.post with
  | error exc =>
    simp only [hpost] at h
    split at h
    · cases h
    · unfold fillFromBalance at h
      cases hw : walletDelta (confirmLostOrderQty p.order.side p.preRaw v.after) p.order.size with
      | error exc => simp [hw, bind, Except.bind] at h
      | ok moved =>
        simp only [hw, bind, Except.bind, pure, Except.pure] at h
        cases moved with
        | none => cases h
        | some moved =>
          by_cases hzero : moved ≤ 0
          · simp [hzero] at h
          · simp only [hzero, if_false, Except.ok.injEq] at h
            subst h
            exact not_le.mp hzero
  | ok resp =>
    simp only [hpost] at h
    split_ifs at h
    · cases Except.ok.inj h
    obtain ⟨hqty, hne, -⟩ := resolveFill_ok (Except.ok.inj h)
    exact lt_of_le_of_ne (settleAnswered_range hsize hqty).1 (Ne.symm hne)

theorem sellPlacement_skip {c : SellCall} {skip : ExecResult} (h : c.placement = .error skip) :
    skip.filled = false := by
  unfold SellCall.placement sellPlacement at h
  simp only at h
  repeat' split at h
  all_goals
    cases h
    try rfl

theorem executeSellUnguarded_writes (db : Db) (c : SellCall) :
    SellWrites db c.position.positionId (executeSellUnguarded db c).result
      (executeSellUnguarded db c).db := by
  unfold executeSellUnguarded
  cases hp : c.placement with
  | error skip => exact sellWrites_skip db _ (sellPlacement_skip hp)
  | ok p =>
    dsimp only [placed]
    cases hf : orderFill p c.venue (some (c.estimate p.order.price)) with
    | error exc => exact sellWrites_raise db _ exc
    | ok res =>
      cases res with
      | error skip => exact sellWrites_skip db _ (orderFill_skip hf)
      | ok fill =>
        dsimp only [persistSell]
        cases hw : persistIrreversible
          (db.recordSell c.position.positionId (fill.sellArgs c.closeReason c.ts c.trigger))
            c.outage with
        | error exc => exact sellWrites_skip db _ rfl
        | ok r =>
          exact .inr ⟨_, _, r.1, orderFill_pos (sellPlacement_size hp).1 hf, rfl, rfl,
            persistIrreversible_ok hw⟩

theorem executeSell_writes (s : LiveState) (c : SellCall) :
    SellWrites s.db c.position.positionId (executeSell s c).2.result (executeSell s c).1.db := by
  unfold executeSell
  split
  · exact executeSellUnguarded_writes s.db c
  · split_ifs
    · exact sellWrites_skip s.db _ rfl
    · exact executeSellUnguarded_writes s.db c

theorem request_writes (s : LiveState) (request : SellRequest) :
    SellWrites s.db request.position.positionId (request.execute s).2 (request.execute s).1.db := by
  cases request with
  | paper c => exact paperSell_writes s.db c
  | live c => exact executeSell_writes s c

theorem liveCall_shrinks (s : LiveState) (c : LiveCall) : Shrinks s.db (liveCall s c).1.db := by
  cases c with
  | sell c => exact (executeSell_writes s c).shrinks
  | buy c =>
    -- the wallet of the executor does not enter what it records
    rcases Executor.buy_cases (.live ⟨"", ""⟩) s.db c with ⟨hsame, -⟩ | ⟨a, held, -, hopen, -⟩
    · exact (congrArg (Shrinks s.db) hsame).mpr (.refl s.db)
    · have hattempt : s.db.attempt ⟨.openPosition a, none⟩ = (liveCall s (.buy c)).1.db := by
        simp only [Db.attempt, Db.call, hopen, Except.map]
        rfl
      rw [← hattempt]
      exact attempt_shrinks fun i b hb => by cases hb

end OpenPoly
