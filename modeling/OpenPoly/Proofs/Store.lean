import OpenPoly.Lib.Run
import OpenPoly.Lib.Except
import OpenPoly.Lib.Holding
import OpenPoly.Spec.Store

/-! The ledger invariant: every position row is the account of its fills, and
every call of the store keeps it so. -/

namespace OpenPoly

open Transition Holding

theorem nextId_gt {ids : List ℕ} {i : ℕ} (h : i ∈ ids) : i < nextId ids := by
  unfold nextId
  induction ids with
  | nil => simp at h
  | cons a ids ih =>
    rcases List.mem_cons.mp h with rfl | h
    · simp only [List.foldr_cons]; omega
    · have := ih h
      simp only [List.foldr_cons]; omega

theorem nextId_notMem (ids : List ℕ) : nextId ids ∉ ids :=
  fun h => absurd (nextId_gt h) (lt_irrefl _)

theorem Db.get_mem {db : Db} {i : ℕ} {p : PositionRow} (h : db.get i = some p) :
    p ∈ db.positions ∧ p.id = i :=
  ⟨List.mem_of_find?_eq_some h, by simpa using List.find?_some h⟩

@[simp] theorem Db.addFill_positions (db : Db) (f : FillRow) :
    (db.addFill f).positions = db.positions := rfl

@[simp] theorem Db.setRow_fills (db : Db) (row : PositionRow) :
    (db.setRow row).fills = db.fills := rfl

@[simp] theorem Db.fillsOf_setRow (db : Db) (row : PositionRow) (i : ℕ) (act : FillAction) :
    (db.setRow row).fillsOf i act = db.fillsOf i act := rfl

theorem Db.fillsOf_addFill (db : Db) (f : FillRow) (i : ℕ) (act : FillAction) :
    (db.addFill f).fillsOf i act =
      if f.positionId = i ∧ f.action = act
      then db.fillsOf i act ++ [{ f with id := nextId (db.fills.map FillRow.id) }]
      else db.fillsOf i act := by
  unfold Db.addFill Db.fillsOf
  split_ifs with h <;> simp [List.filter_append, h]

theorem Db.setRow_ids (db : Db) (row : PositionRow) :
    (db.setRow row).positions.map PositionRow.id = db.positions.map PositionRow.id := by
  simp only [Db.setRow, List.map_map]
  apply List.map_congr_left
  intro p _
  simp only [Function.comp_apply]
  split_ifs with h
  · exact h.symm
  · rfl

theorem Db.mem_setRow {db : Db} {row p : PositionRow} (h : p ∈ (db.setRow row).positions) :
    p = row ∨ (p ∈ db.positions ∧ p.id ≠ row.id) := by
  obtain ⟨q, hq, rfl⟩ := List.mem_map.mp h
  split_ifs with hid
  · exact .inl rfl
  · exact .inr ⟨hq, hid⟩

theorem Db.mem_setRow_of_ne {db : Db} {row p : PositionRow} (h : p ∈ db.positions)
    (hne : p.id ≠ row.id) : p ∈ (db.setRow row).positions :=
  List.mem_map.mpr ⟨p, h, if_neg hne⟩

theorem Db.hasOpen_iff (db : Db) (m : String) (s : Side) :
    db.hasOpen m s = true ↔
      ∃ p ∈ db.positions, p.marketId = m ∧ p.side = s ∧ p.status = .open := by
  simp [Db.hasOpen]

theorem requireOpen_ok {db : Db} {i : ℕ} {pos : PositionRow} (h : db.requireOpen i = .ok pos) :
    db.get i = some pos ∧ pos.status = .open := by
  unfold Db.requireOpen at h
  cases hg : db.get i with
  | none => simp [hg] at h
  | some q =>
    by_cases hq : q.status = .open
    · simp only [hg, hq, ne_eq, not_true_eq_false, if_false, Except.ok.injEq] at h
      exact ⟨by rw [h], h ▸ hq⟩
    · simp [hg, hq] at h

theorem requireOpen_of_get {db : Db} {i : ℕ} {pos : PositionRow} (h : db.get i = some pos)
    (ho : pos.status = .open) : db.requireOpen i = .ok pos := by
  simp [Db.requireOpen, h, ho]

/-- What a disposal does: `row` replaces the open row `pos` and `fill` joins the
ledger. -/
structure Disposal (db : Db) (i : ℕ) (pos row : PositionRow) (fill : FillRow) (db' : Db) :
    Prop where
  found : db.get i = some pos
  wasOpen : pos.status = .open
  after : db' = (db.addFill fill).setRow row

theorem closePosition_ok {db db' : Db} {i : ℕ} {a : CloseArgs} {row : PositionRow}
    (h : db.closePosition i a = .ok (row, db')) :
    ∃ pos, Disposal db i pos row
      (sellFill pos a.sellPrice pos.qty 0 a.ts a.trigger a.orderId a.txHash) db' ∧
      row = db.closedRow pos a := by
  unfold Db.closePosition at h
  obtain ⟨pos, hr, h⟩ := Results.except_bind_ok h
  obtain ⟨rfl, rfl⟩ := Prod.mk.inj (Except.ok.inj h)
  exact ⟨pos, ⟨(requireOpen_ok hr).1, (requireOpen_ok hr).2, rfl⟩, rfl⟩

theorem recordSell_ok {db db' : Db} {i : ℕ} {a : SellArgs} {row : PositionRow}
    (h : db.recordSell i a = .ok (row, db')) :
    ∃ pos, Disposal db i pos row
      (sellFill pos a.sellPrice (min a.soldQty pos.qty) a.fee a.ts a.trigger a.orderId a.txHash)
        db' ∧
      row = db.soldRow pos a := by
  unfold Db.recordSell at h
  obtain ⟨pos, hr, h⟩ := Results.except_bind_ok h
  obtain ⟨rfl, rfl⟩ := Prod.mk.inj (Except.ok.inj h)
  exact ⟨pos, ⟨(requireOpen_ok hr).1, (requireOpen_ok hr).2, rfl⟩, rfl⟩

theorem soldRow_id (db : Db) (pos : PositionRow) (a : SellArgs) : (db.soldRow pos a).id = pos.id := by
  unfold Db.soldRow
  dsimp only
  split_ifs <;> rfl

/-- A sell that leaves less than the smallest sellable quantity closes the row. -/
theorem soldRow_closed {db : Db} {pos : PositionRow} {a : SellArgs}
    (h : pos.qty - min a.soldQty pos.qty < minSellableQty) :
    (db.soldRow pos a).status = .closed := by
  rw [Db.soldRow, if_pos h]

/-- The tables after an `open_position` that returns. -/
def Db.opened (db : Db) (a : OpenArgs) : Db :=
  let id := nextId (db.positions.map PositionRow.id)
  { db with positions := db.positions ++ [openRow id a] }.addFill (buyFill id a)

theorem openPosition_ok {db db' : Db} {a : OpenArgs} {held : HeldPosition}
    (h : db.openPosition a = .ok (held, db')) :
    db.hasOpen a.marketId a.side = false ∧ db' = db.opened a ∧
      held = (openRow (nextId (db.positions.map PositionRow.id)) a).toHeld := by
  unfold Db.openPosition at h
  split_ifs at h with ho
  simp only [Except.ok.injEq, Prod.mk.injEq] at h
  exact ⟨by simpa using ho, h.2.symm, h.1.symm⟩

theorem Db.get_setRow (db : Db) (row : PositionRow) (i : ℕ) :
    (db.setRow row).get i = (db.get i).map fun p => if p.id = row.id then row else p := by
  unfold Db.get Db.setRow
  rw [List.find?_map]
  congr 2
  funext p
  simp only [Function.comp_apply]
  split_ifs with h
  · rw [h]
  · rfl

theorem Db.get_opened {db : Db} {i : ℕ} {p : PositionRow} (h : db.get i = some p) (a : OpenArgs) :
    (db.opened a).get i = some p := by
  unfold Db.get at h ⊢
  simp only [Db.opened, Db.addFill_positions, List.find?_append, h, Option.some_or]

theorem Disposal.get {db db' : Db} {i j : ℕ} {pos row p : PositionRow} {fill : FillRow}
    (h : Disposal db i pos row fill db') (hid : row.id = pos.id) (hp : db.get j = some p) :
    db'.get j = some (if i = j then row else p) := by
  have hpos := (Db.get_mem h.found).2
  have hpj := (Db.get_mem hp).2
  have hget : (db.addFill fill).get j = some p := hp
  rw [h.after, Db.get_setRow, hget, Option.map_some, hid, hpos, hpj]
  by_cases hij : i = j
  · rw [if_pos hij, if_pos hij.symm]
  · rw [if_neg hij, if_neg (Ne.symm hij)]

theorem Disposal.get_cases {db db' : Db} {i j : ℕ} {pos row p : PositionRow} {fill : FillRow}
    (h : Disposal db i pos row fill db') (hid : row.id = pos.id) (hp : db.get j = some p) :
    db'.get j = some p ∨ i = j ∧ pos = p ∧ db'.get j = some row := by
  have hget := h.get hid hp
  by_cases hij : i = j
  · subst hij
    rw [if_pos rfl] at hget
    exact .inr ⟨rfl, Option.some.inj (h.found.symm.trans hp), hget⟩
  · rw [if_neg hij] at hget
    exact .inl hget

theorem Disposal.ids {db db' : Db} {i : ℕ} {pos row : PositionRow} {fill : FillRow}
    (hd : Disposal db i pos row fill db') :
    db'.positions.map PositionRow.id = db.positions.map PositionRow.id := by
  rw [hd.after, Db.setRow_ids, Db.addFill_positions]

/-- What an attempt can do: nothing, open a position, close one, sell of one. -/
theorem attempt_effect (db : Db) (e : Attempt) :
    db.attempt e = db ∨
    (∃ a, e.call = .openPosition a ∧ db.hasOpen a.marketId a.side = false ∧
      db.attempt e = db.opened a) ∨
    (∃ i a r pos, e.outage = none ∧ e.call = .closePosition i a ∧ db.closePosition i a = .ok r ∧
      Disposal db i pos (db.closedRow pos a)
        (sellFill pos a.sellPrice pos.qty 0 a.ts a.trigger a.orderId a.txHash) (db.attempt e)) ∨
    ∃ i a r pos, e.outage = none ∧ e.call = .recordSell i a ∧ db.recordSell i a = .ok r ∧
      Disposal db i pos (db.soldRow pos a)
        (sellFill pos a.sellPrice (min a.soldQty pos.qty) a.fee a.ts a.trigger a.orderId a.txHash)
        (db.attempt e) := by
  unfold Db.attempt
  cases e.outage with
  | some err => exact .inl rfl
  | none =>
    cases e.call with
    | openPosition a =>
      simp only [Db.call]
      cases hr : db.openPosition a with
      | error err => exact .inl rfl
      | ok r =>
        obtain ⟨ho, hdb, -⟩ := openPosition_ok hr
        exact .inr (.inl ⟨a, rfl, ho, hdb⟩)
    | closePosition i a =>
      simp only [Db.call]
      cases hr : db.closePosition i a with
      | error err => exact .inl rfl
      | ok r =>
        obtain ⟨pos, hd, hrow⟩ := closePosition_ok hr
        exact .inr (.inr (.inl ⟨i, a, r, pos, trivial, rfl, hr, hrow ▸ hd⟩))
    | recordSell i a =>
      simp only [Db.call]
      cases hr : db.recordSell i a with
      | error err => exact .inl rfl
      | ok r =>
        obtain ⟨pos, hd, hrow⟩ := recordSell_ok hr
        exact .inr (.inr (.inr ⟨i, a, r, pos, trivial, rfl, hr, hrow ▸ hd⟩))

/-- What an attempt makes of a row: nothing, or a disposal of that open row. -/
theorem attempt_get {db : Db} {i : ℕ} {p : PositionRow} (h : db.get i = some p) (e : Attempt) :
    (db.attempt e).get i = some p ∨
      e.outage = none ∧ p.status = .open ∧
        ((∃ a, e.call = .closePosition i a ∧ (db.attempt e).get i = some (db.closedRow p a)) ∨
          ∃ a, e.call = .recordSell i a ∧ (db.attempt e).get i = some (db.soldRow p a)) := by
  rcases attempt_effect db e with heq | ⟨a, -, -, heq⟩ | ⟨j, a, r, pos, hout, hc, -, hd⟩ |
    ⟨j, a, r, pos, hout, hc, -, hd⟩
  · exact .inl (by rw [heq, h])
  · exact .inl (by rw [heq, Db.get_opened h a])
  · rcases hd.get_cases rfl h with hsame | ⟨rfl, rfl, hnew⟩
    · exact .inl hsame
    · exact .inr ⟨hout, hd.wasOpen, .inl ⟨a, hc, hnew⟩⟩
  · rcases hd.get_cases (soldRow_id _ _ _) h with hsame | ⟨rfl, rfl, hnew⟩
    · exact .inl hsame
    · exact .inr ⟨hout, hd.wasOpen, .inr ⟨a, hc, hnew⟩⟩

/-- An attempt adds at most one id, a new one. -/
theorem attempt_ids {db : Db} (h : (db.positions.map PositionRow.id).Nodup) (e : Attempt) :
    ((db.attempt e).positions.map PositionRow.id).Nodup := by
  rcases attempt_effect db e with heq | ⟨a, -, -, heq⟩ | ⟨i, a, r, pos, -, -, -, hd⟩ |
    ⟨i, a, r, pos, -, -, -, hd⟩
  · rwa [heq]
  · rw [heq, Db.opened, Db.addFill_positions, List.map_append, List.map_singleton]
    refine List.nodup_append.mpr ⟨h, List.nodup_singleton _, fun x hx y hy => ?_⟩
    rw [List.mem_singleton.mp hy]
    exact fun heq => nextId_notMem _ (heq ▸ hx)
  · rwa [hd.ids]
  · rwa [hd.ids]

theorem Db.get_of_mem {db : Db} (h : (db.positions.map PositionRow.id).Nodup) {p : PositionRow}
    (hp : p ∈ db.positions) : db.get p.id = some p := by
  cases hg : db.get p.id with
  | none => simpa using List.find?_eq_none.mp hg p hp
  | some q => rw [List.inj_on_of_nodup_map h (Db.get_mem hg).1 hp (Db.get_mem hg).2]

def PositionRow.account (p : PositionRow) : Account ℚ :=
  ⟨p.qty, p.realizedPnl.getD 0, p.status = .open⟩

def FillRow.sale (f : FillRow) : Sale ℚ := ⟨f.price, f.qty, f.fee⟩

/-- The terms of the buy fill `b`. -/
def FillRow.terms (b : FillRow) : Terms ℚ := ⟨b.price, b.fee / b.qty, minSellableQty⟩

def foldFills (b : FillRow) (sells : List FillRow) : Account ℚ :=
  Account.fold b.terms b.qty (sells.map FillRow.sale)

/-- The row `p` is the projection of its fills, `b` being the one buy. -/
structure Projects (db : Db) (p : PositionRow) (b : FillRow) : Prop where
  buy : db.fillsOf p.id .buy = [b]
  bought : 0 < b.qty
  price : b.price = p.avgEntryPrice
  market : b.marketId = p.marketId ∧ b.side = p.side ∧ b.ts = p.openedAt
  fold : p.account = foldFills b (db.fillsOf p.id .sell)
  held : p.status = .open → 0 < p.qty
  sold : ((db.fillsOf p.id .sell).map FillRow.qty).sum ≤ b.qty

structure LedgerInv (db : Db) : Prop where
  nodup : (db.positions.map PositionRow.id).Nodup
  known : ∀ f ∈ db.fills, f.positionId ∈ db.positions.map PositionRow.id
  projects : ∀ p ∈ db.positions, ∃ b, Projects db p b
  oneOpen : ∀ p ∈ db.positions, ∀ q ∈ db.positions, p.status = .open → q.status = .open →
    p.marketId = q.marketId → p.side = q.side → p = q

theorem ledgerInv_empty : LedgerInv Db.empty := by
  constructor <;> simp [Db.empty]

theorem LedgerInv.eq_of_id {db : Db} (h : LedgerInv db) {p q : PositionRow}
    (hp : p ∈ db.positions) (hq : q ∈ db.positions) (hid : p.id = q.id) : p = q :=
  List.inj_on_of_nodup_map h.nodup hp hq hid

theorem LedgerInv.get_eq {db : Db} (h : LedgerInv db) {p : PositionRow} (hp : p ∈ db.positions) :
    db.get p.id = some p :=
  Db.get_of_mem h.nodup hp

theorem Projects.buyFee {db : Db} {p : PositionRow} {b : FillRow} (h : Projects db p b) :
    db.buyFeePerShare p.id = b.fee / b.qty := by
  unfold Db.buyFeePerShare
  rw [h.buy]
  have hq : b.qty ≠ 0 := h.bought.ne'
  by_cases hf : b.fee = 0 <;> simp [hq, hf]

theorem Projects.gain {db : Db} {p : PositionRow} {b : FillRow} (h : Projects db p b)
    (price qty fee : ℚ) :
    db.realizedGainOf p price qty fee = Sale.gain b.terms ⟨price, qty, fee⟩ := by
  simp only [Db.realizedGainOf, Sale.gain, FillRow.terms, h.buyFee, h.price]

/-- The row both closing mutators write: the account after the sale, everything
that identifies the position kept. -/
structure SoldInto (b : FillRow) (pos row : PositionRow) (s : Sale ℚ) : Prop where
  id : row.id = pos.id
  price : row.avgEntryPrice = pos.avgEntryPrice
  market : row.marketId = pos.marketId ∧ row.side = pos.side ∧ row.openedAt = pos.openedAt
  account : row.account = pos.account.sell b.terms s
  qty : s.qty ≤ pos.qty

theorem soldInto_closedRow {db : Db} {pos : PositionRow} {b : FillRow} (h : Projects db pos b)
    (a : CloseArgs) : SoldInto b pos (db.closedRow pos a) ⟨a.sellPrice, pos.qty, 0⟩ where
  id := rfl
  price := rfl
  market := ⟨rfl, rfl, rfl⟩
  account := by
    have hlt : pos.account.qty - pos.qty < b.terms.minQty := by
      norm_num [PositionRow.account, FillRow.terms, minSellableQty]
    rw [Account.sell, if_pos hlt, ← h.gain]
    rfl
  qty := le_rfl

theorem soldInto_soldRow {db : Db} {pos : PositionRow} {b : FillRow} (h : Projects db pos b)
    (a : SellArgs) :
    SoldInto b pos (db.soldRow pos a) ⟨a.sellPrice, min a.soldQty pos.qty, a.fee⟩ := by
  have hgain := h.gain a.sellPrice (min a.soldQty pos.qty) a.fee
  by_cases hres : pos.qty - min a.soldQty pos.qty < minSellableQty
  · have hlt : pos.account.qty - min a.soldQty pos.qty < b.terms.minQty := hres
    rw [Db.soldRow, if_pos hres]
    refine ⟨rfl, rfl, ⟨rfl, rfl, rfl⟩, ?_, min_le_right _ _⟩
    rw [Account.sell, if_pos hlt, ← hgain]
    rfl
  · have hge : ¬ pos.account.qty - min a.soldQty pos.qty < b.terms.minQty := hres
    rw [Db.soldRow, if_neg hres]
    refine ⟨rfl, rfl, ⟨rfl, rfl, rfl⟩, ?_, min_le_right _ _⟩
    rw [Account.sell, if_neg hge, ← hgain]
    rfl

/-- The calls that close a position: a `close_position` that succeeds, and a
`record_sell` that leaves less than the smallest sellable quantity. -/
def ClosesRow (id : ℕ) (db : Db) (e : Attempt) : Prop :=
  e.outage = none ∧
    ((∃ a r, e.call = .closePosition id a ∧ db.closePosition id a = .ok r) ∨
      ∃ a r p, e.call = .recordSell id a ∧ db.recordSell id a = .ok r ∧ db.get id = some p ∧
        p.qty - min a.soldQty p.qty < minSellableQty)

/-- The three things an attempt can do: nothing, open a position, dispose of
some of one. -/
theorem attempt_cases {db : Db} (hinv : LedgerInv db) (e : Attempt) :
    db.attempt e = db ∨
    (∃ a, e.call = .openPosition a ∧ db.hasOpen a.marketId a.side = false ∧
      db.attempt e = db.opened a) ∨
    ∃ i pos row fill b, Disposal db i pos row fill (db.attempt e) ∧ Projects db pos b ∧
      SoldInto b pos row fill.sale ∧ fill.action = .sell ∧ fill.positionId = pos.id ∧
      (row.status = .closed → ClosesRow i db e) := by
  rcases attempt_effect db e with heq | hopened | ⟨i, a, r, pos, hout, hc, hr, hd⟩ |
    ⟨i, a, r, pos, hout, hc, hr, hd⟩
  · exact .inl heq
  · exact .inr (.inl hopened)
  · obtain ⟨b, hb⟩ := hinv.projects pos (Db.get_mem hd.found).1
    exact .inr (.inr ⟨i, pos, _, _, b, hd, hb, soldInto_closedRow hb a, rfl, rfl,
      fun _ => ⟨hout, .inl ⟨a, r, hc, hr⟩⟩⟩)
  · obtain ⟨b, hb⟩ := hinv.projects pos (Db.get_mem hd.found).1
    refine .inr (.inr ⟨i, pos, _, _, b, hd, hb, soldInto_soldRow hb a, rfl, rfl,
      fun hclosed => ⟨hout, .inr ⟨a, r, pos, hc, hr, hd.found, ?_⟩⟩⟩)
    by_contra hge
    rw [Db.soldRow, if_neg hge] at hclosed
    exact absurd (hd.wasOpen.symm.trans hclosed) (by decide)

theorem Disposal.row_mem {db db' : Db} {i : ℕ} {pos row : PositionRow} {fill : FillRow}
    (h : Disposal db i pos row fill db') (hid : row.id = pos.id) : row ∈ db'.positions := by
  rw [h.after]
  exact List.mem_map.mpr ⟨pos, (Db.get_mem h.found).1, if_pos hid.symm⟩

/-- After a closing call the row of that id is closed. -/
theorem ClosesRow.closed {db : Db} {e : Attempt} {i : ℕ} (h : ClosesRow i db e) :
    ∃ p ∈ (db.attempt e).positions, p.id = i ∧ p.status = .closed := by
  obtain ⟨hout, ⟨a, r, hc, hr⟩ | ⟨a, r, p, hc, hr, hp, hlt⟩⟩ := h
  · obtain ⟨pos, hd, hrow⟩ := closePosition_ok hr
    have hatt : db.attempt e = r.2 := by simp [Db.attempt, hout, hc, Db.call, hr, Except.map]
    rw [hatt]
    refine ⟨r.1, hd.row_mem (by rw [hrow]; rfl), ?_, ?_⟩
    · rw [hrow]; exact (Db.get_mem hd.found).2
    · rw [hrow]; rfl
  · obtain ⟨pos, hd, hrow⟩ := recordSell_ok hr
    have hatt : db.attempt e = r.2 := by simp [Db.attempt, hout, hc, Db.call, hr, Except.map]
    obtain rfl : p = pos := Option.some.inj (hp.symm.trans hd.found)
    have hrow' : r.1 = _ := hrow.trans (if_pos hlt)
    rw [hatt]
    refine ⟨r.1, hd.row_mem (by rw [hrow']), ?_, ?_⟩
    · rw [hrow']; exact (Db.get_mem hd.found).2
    · rw [hrow']

theorem Projects.congr {db db' : Db} {p : PositionRow} {b : FillRow} (h : Projects db p b)
    (hf : ∀ act, db'.fillsOf p.id act = db.fillsOf p.id act) : Projects db' p b where
  buy := by rw [hf, h.buy]
  bought := h.bought
  price := h.price
  market := h.market
  fold := by rw [hf, h.fold]
  held := h.held
  sold := by rw [hf]; exact h.sold

theorem fillsOf_eq_nil {db : Db} (h : LedgerInv db) {i : ℕ}
    (hi : i ∉ db.positions.map PositionRow.id) (act : FillAction) : db.fillsOf i act = [] := by
  rw [Db.fillsOf, List.filter_eq_nil_iff]
  intro f hf hdec
  simp only [decide_eq_true_eq] at hdec
  exact hi (hdec.1 ▸ h.known f hf)

theorem Db.opened_fillsOf (db : Db) (a : OpenArgs) (i : ℕ) (act : FillAction) :
    (db.opened a).fillsOf i act =
      if nextId (db.positions.map PositionRow.id) = i ∧ FillAction.buy = act
      then db.fillsOf i act ++ [{ buyFill (nextId (db.positions.map PositionRow.id)) a with
        id := nextId (db.fills.map FillRow.id) }]
      else db.fillsOf i act :=
  Db.fillsOf_addFill _ _ _ _

theorem ledgerInv_opened {db : Db} (h : LedgerInv db) {a : OpenArgs} (hq : 0 < a.qty)
    (ho : db.hasOpen a.marketId a.side = false) : LedgerInv (db.opened a) := by
  set i := nextId (db.positions.map PositionRow.id) with hi
  have hfresh : i ∉ db.positions.map PositionRow.id := nextId_notMem _
  have hpos : (db.opened a).positions = db.positions ++ [openRow i a] := rfl
  have hnew : ∀ q ∈ db.positions, q.status = .open → q.marketId = a.marketId →
      q.side = a.side → False := by
    intro q hqm hqo hm hs
    have := (Db.hasOpen_iff db a.marketId a.side).mpr ⟨q, hqm, hm, hs, hqo⟩
    simp [ho] at this
  constructor
  · rw [hpos, List.map_append, List.nodup_append]
    refine ⟨h.nodup, by simp, ?_⟩
    rintro x hx y hy rfl
    simp only [List.map_cons, List.map_nil, List.mem_singleton] at hy
    have hxi : x = i := hy
    exact hfresh (hxi ▸ hx)
  · intro f hf
    rcases List.mem_append.mp hf with hf | hf
    · simp only [hpos, List.map_append]
      exact List.mem_append_left _ (h.known f hf)
    · simp only [List.mem_singleton] at hf
      subst hf
      simp only [hpos, List.map_append]
      exact List.mem_append_right _ (by simp [buyFill, openRow, hi])
  · intro p hp
    rcases List.mem_append.mp (hpos ▸ hp) with hp | hp
    · obtain ⟨b, hb⟩ := h.projects p hp
      refine ⟨b, hb.congr fun act => ?_⟩
      rw [Db.opened_fillsOf, if_neg]
      rintro ⟨hid, -⟩
      exact hfresh (hi.trans hid ▸ List.mem_map_of_mem hp)
    · obtain rfl := List.mem_singleton.mp hp
      have hnil := fillsOf_eq_nil h hfresh
      refine ⟨{ buyFill i a with id := nextId (db.fills.map FillRow.id) }, ?_, hq, rfl,
        ⟨rfl, rfl, rfl⟩, ?_, fun _ => hq, ?_⟩
      · rw [Db.opened_fillsOf, if_pos ⟨rfl, rfl⟩]
        simp [openRow, hnil, ← hi]
      · rw [Db.opened_fillsOf, if_neg (by simp)]
        simp [openRow, hnil, foldFills, PositionRow.account, Account.opened, buyFill]
      · rw [Db.opened_fillsOf, if_neg (by simp)]
        simpa [openRow, hnil, buyFill] using hq.le
  · intro p hp q hq' hpo hqo hm hs
    rcases List.mem_append.mp (hpos ▸ hp) with hp | hp <;>
      rcases List.mem_append.mp (hpos ▸ hq') with hq' | hq'
    · exact h.oneOpen p hp q hq' hpo hqo hm hs
    · obtain rfl := List.mem_singleton.mp hq'
      exact (hnew p hp hpo hm hs).elim
    · obtain rfl := List.mem_singleton.mp hp
      exact (hnew q hq' hqo hm.symm hs.symm).elim
    · rw [List.mem_singleton.mp hp, List.mem_singleton.mp hq']

/-- The fills of any other position, and of any other action, outlast a disposal. -/
theorem Disposal.fillsOf {db db' : Db} {i : ℕ} {pos row : PositionRow} {fill : FillRow}
    (h : Disposal db i pos row fill db') (j : ℕ) (act : FillAction) :
    db'.fillsOf j act =
      if fill.positionId = j ∧ fill.action = act
      then db.fillsOf j act ++ [{ fill with id := nextId (db.fills.map FillRow.id) }]
      else db.fillsOf j act := by
  rw [h.after, Db.fillsOf_setRow, Db.fillsOf_addFill]

theorem account_sell_held {t : Terms ℚ} {acc : Account ℚ} {s : Sale ℚ} (ht : t.minQty = minSellableQty)
    (h : (acc.sell t s).isOpen = true) : 0 < (acc.sell t s).qty := by
  obtain ⟨-, hleft⟩ := (Account.sell_isOpen t s acc).mp h
  rw [Account.sell, if_neg (not_lt.mpr hleft)]
  have : (0 : ℚ) < minSellableQty := by norm_num [minSellableQty]
  show 0 < acc.qty - s.qty
  linarith

theorem isOpen_account (p : PositionRow) : p.account.isOpen = true ↔ p.status = .open := by
  simp [PositionRow.account]

/-- The row a disposal writes is the projection of the fills it leaves. -/
theorem projects_disposal {db db' : Db} {i : ℕ} {pos row : PositionRow} {fill b : FillRow}
    (hd : Disposal db i pos row fill db') (hb : Projects db pos b)
    (hs : SoldInto b pos row fill.sale) (hact : fill.action = .sell)
    (hpid : fill.positionId = pos.id) : Projects db' row b := by
  have hsell : db'.fillsOf row.id .sell =
      db.fillsOf pos.id .sell ++ [{ fill with id := nextId (db.fills.map FillRow.id) }] := by
    rw [hd.fillsOf, if_pos ⟨hpid.trans hs.id.symm, hact⟩, hs.id]
  have hfold := hb.fold
  have hwas : pos.account.isOpen = true := (isOpen_account pos).mpr hd.wasOpen
  refine ⟨?_, hb.bought, hb.price.trans hs.price.symm, ?_, ?_, ?_, ?_⟩
  · rw [hd.fillsOf, if_neg (by simp [hact]), hs.id, hb.buy]
  · obtain ⟨h1, h2, h3⟩ := hb.market
    obtain ⟨g1, g2, g3⟩ := hs.market
    exact ⟨h1.trans g1.symm, h2.trans g2.symm, h3.trans g3.symm⟩
  · rw [hsell, hs.account, hfold, foldFills, foldFills, List.map_append, List.map_singleton,
      Account.fold_snoc]
    rfl
  · intro ho
    have hopen := (isOpen_account row).mpr ho
    rw [hs.account] at hopen
    have := account_sell_held rfl hopen
    rwa [← hs.account] at this
  · rw [hsell, List.map_append]
    have hq : fill.sale.qty ≤ (foldFills b (db.fillsOf pos.id .sell)).qty := hfold ▸ hs.qty
    have := Account.sold_snoc_le b.terms b.qty ((db.fillsOf pos.id .sell).map FillRow.sale)
      fill.sale (by rw [← foldFills, ← hfold]; exact hwas) hq
    simpa [FillRow.sale, List.map_map, Function.comp_def] using this

theorem ledgerInv_disposal {db db' : Db} {i : ℕ} {pos row : PositionRow} {fill b : FillRow}
    (h : LedgerInv db) (hd : Disposal db i pos row fill db') (hb : Projects db pos b)
    (hs : SoldInto b pos row fill.sale) (hact : fill.action = .sell)
    (hpid : fill.positionId = pos.id) : LedgerInv db' := by
  have hmem := (Db.get_mem hd.found).1
  have hids : db'.positions.map PositionRow.id = db.positions.map PositionRow.id := by
    rw [hd.after, Db.setRow_ids, Db.addFill_positions]
  have hrow : ∀ {p}, p ∈ db'.positions → p = row ∨ (p ∈ db.positions ∧ p.id ≠ row.id) := by
    intro p hp
    rw [hd.after] at hp
    simpa using Db.mem_setRow hp
  -- an open row, new or kept, sits where an open row with its market and side sat before
  have hback : ∀ p ∈ db'.positions, p.status = .open → ∃ p₀ ∈ db.positions,
      p₀.status = .open ∧ p₀.marketId = p.marketId ∧ p₀.side = p.side ∧ p₀.id = p.id := by
    intro p hp hpo
    rcases hrow hp with rfl | ⟨hp, -⟩
    · exact ⟨pos, hmem, hd.wasOpen, hs.market.1.symm, hs.market.2.1.symm, hs.id.symm⟩
    · exact ⟨p, hp, hpo, rfl, rfl, rfl⟩
  have hnodup : (db'.positions.map PositionRow.id).Nodup := hids ▸ h.nodup
  constructor
  · exact hnodup
  · intro f hf
    rw [hids]
    rw [hd.after, Db.setRow_fills] at hf
    rcases List.mem_append.mp hf with hf | hf
    · exact h.known f hf
    · obtain rfl := List.mem_singleton.mp hf
      exact hpid ▸ List.mem_map_of_mem hmem
  · intro p hp
    rcases hrow hp with rfl | ⟨hp, hne⟩
    · exact ⟨b, projects_disposal hd hb hs hact hpid⟩
    · obtain ⟨b', hb'⟩ := h.projects p hp
      refine ⟨b', hb'.congr fun act => ?_⟩
      rw [hd.fillsOf, if_neg]
      rintro ⟨hid, -⟩
      exact hne (hid.symm.trans (hpid.trans hs.id.symm))
  · intro p hp q hq hpo hqo hm hsd
    obtain ⟨p₀, hp₀, hpo₀, hpm, hps, hpid'⟩ := hback p hp hpo
    obtain ⟨q₀, hq₀, hqo₀, hqm, hqs, hqid⟩ := hback q hq hqo
    have heq := h.oneOpen p₀ hp₀ q₀ hq₀ hpo₀ hqo₀ (by rw [hpm, hm, hqm]) (by rw [hps, hsd, hqs])
    refine List.inj_on_of_nodup_map hnodup hp hq ?_
    rw [← hpid', heq, hqid]

/-- Positive quantities, as every caller passes them. -/
def Call.Positive : Call → Prop
  | .openPosition a => 0 < a.qty
  | .closePosition _ _ => True
  | .recordSell _ a => 0 < a.soldQty

theorem ledgerInv_attempt {db : Db} (h : LedgerInv db) {e : Attempt} (hp : e.call.Positive) :
    LedgerInv (db.attempt e) := by
  rcases attempt_cases h e with heq | ⟨a, hc, ho, heq⟩ | ⟨i, pos, row, fill, b, hd, hb, hs, ha, hi, -⟩
  · rwa [heq]
  · rw [heq]
    rw [hc] at hp
    exact ledgerInv_opened h hp ho
  · exact ledgerInv_disposal h hd hb hs ha hi

end OpenPoly
