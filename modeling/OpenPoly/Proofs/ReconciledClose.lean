import OpenPoly.Lib.Except
import OpenPoly.Lib.StableSort
import OpenPoly.Proofs.Ledger
import OpenPoly.Spec.Closing
import OpenPoly.Spec.PortfolioGates

/-! The close of a reconciliation tick: when it adds nothing to the realized PnL
and the loss streak of the kill switch reads as if the position were not there. -/

namespace OpenPoly

open Transition Results

def ClosedOutcome.Ends (o : ClosedOutcome) : Prop :=
  0 ≤ o.realizedPnl ∧ o.closeReason ≠ some .reconciled

instance (o : ClosedOutcome) : Decidable o.Ends :=
  inferInstanceAs (Decidable (0 ≤ o.realizedPnl ∧ o.closeReason ≠ some .reconciled))

/-- The streak goes on past closes it does not end at. -/
theorem lossStreak_append (s t : List ClosedOutcome) :
    lossStreak (s ++ t) =
      if ∃ o ∈ s, o.Ends then lossStreak s else lossStreak s + lossStreak t := by
  induction s with
  | nil => simp [lossStreak]
  | cons o s ih =>
    rw [List.cons_append, lossStreak, lossStreak, ih]
    by_cases hloss : o.realizedPnl < 0
    · have hends : ¬ o.Ends := fun h => absurd h.1 (not_le.mpr hloss)
      simp only [hloss, if_true, List.exists_mem_cons_iff, hends, false_or]
      split_ifs <;> omega
    · by_cases hrec : o.closeReason = some .reconciled
      · have hends : ¬ o.Ends := fun h => h.2 hrec
        simp only [hloss, hrec, if_true, if_false, List.exists_mem_cons_iff, hends, false_or]
      · have hends : o.Ends := ⟨not_lt.mp hloss, hrec⟩
        simp only [hloss, hrec, if_false, List.exists_mem_cons_iff, hends, true_or, if_true]

/-- A reconciled close leaves the streak where it is no loss, or where the streak
ends before it. -/
theorem lossStreak_reconciled {a : ClosedOutcome} (ha : a.closeReason = some .reconciled)
    (s t : List ClosedOutcome) :
    lossStreak (s ++ a :: t) = lossStreak (s ++ t) ↔ 0 ≤ a.realizedPnl ∨ ∃ o ∈ s, o.Ends := by
  rw [lossStreak_append, lossStreak_append]
  split_ifs with hends
  · exact ⟨fun _ => .inr hends, fun _ => rfl⟩
  · rw [lossStreak]
    by_cases hloss : a.realizedPnl < 0
    · simp [hloss, hends]
    · simp [hloss, ha, not_lt.mp hloss]

/-- The rows of a slice, `pos` replaced by the row of its id. -/
theorem listPositions_setRow (db : Db) (row : PositionRow) (limit : ℕ) :
    (db.setRow row).listPositions limit =
      (db.listPositions limit).map fun p => if p.id = row.id then row else p := by
  have hid : ∀ p : PositionRow, (if p.id = row.id then row else p).id = p.id := by
    intro p
    split_ifs with h
    · exact h.symm
    · rfl
  unfold Db.listPositions Db.setRow
  rw [List.map_take, List.map_insertionSort (r := fun p q : PositionRow => q.id ≤ p.id)
    (s := fun p q : PositionRow => q.id ≤ p.id)]
  intro a _ b _
  rw [hid, hid]

/-- Around a row of a slice stand the newer ids and then the older ones. -/
theorem listPositions_split {db : Db} (hids : (db.positions.map PositionRow.id).Nodup) {limit : ℕ}
    {pos : PositionRow} (hmem : pos ∈ db.listPositions limit) :
    ∃ x y, db.listPositions limit = x ++ pos :: y ∧ (∀ p ∈ x, pos.id < p.id) ∧
      ∀ p ∈ y, p.id < pos.id := by
  obtain ⟨x, y, hsplit⟩ := List.append_of_mem hmem
  have hsub : (db.listPositions limit).Sublist (db.positions.insertionSort fun p q => q.id ≤ p.id) :=
    List.take_sublist _ _
  have hsorted : (db.listPositions limit).Pairwise fun p q => q.id ≤ p.id := by
    have : Std.Total fun p q : PositionRow => q.id ≤ p.id := ⟨fun p q => le_total _ _⟩
    have : IsTrans PositionRow fun p q => q.id ≤ p.id := ⟨fun p q r h1 h2 => h2.trans h1⟩
    exact (List.pairwise_insertionSort _ _).sublist hsub
  have hnodup : ((db.listPositions limit).map PositionRow.id).Nodup :=
    (((List.perm_insertionSort _ _).map PositionRow.id).nodup_iff.mpr hids).sublist (hsub.map _)
  have hlt : (db.listPositions limit).Pairwise fun p q => q.id < p.id :=
    hsorted.imp₂ (fun p q hle hne => lt_of_le_of_ne hle hne.symm) (List.pairwise_map.mp hnodup)
  rw [hsplit, List.pairwise_append] at hlt
  exact ⟨x, y, hsplit, fun p hp => hlt.2.2 p hp pos List.mem_cons_self,
    (List.pairwise_cons.mp hlt.2.1).1⟩

/-- Closed later than `pos` at `ts`, as the streak is walked: by stamp, newer id
first on a tie. -/
def ClosedAfter (pos : PositionRow) (ts : ℚ) (p : PositionRow) (o : ClosedOutcome) : Prop :=
  ts < o.closedAt ∨ (ts = o.closedAt ∧ pos.id < p.id)

/-- The streak reads as without the row that was closed, where that is no loss or
some later close of the slice ends the streak. -/
theorem streak_without_iff {db : Db} (hids : (db.positions.map PositionRow.id).Nodup)
    {pos row : PositionRow} {a : ClosedOutcome} {limit : ℕ} (hmem : pos ∈ db.listPositions limit)
    (hrow : row.id = pos.id) (ha : row.outcome = some a) (hrec : a.closeReason = some .reconciled) :
    lossStreak (closedOutcomes ((db.setRow row).listPositions limit)) =
        lossStreak (closedOutcomes
          (((db.setRow row).listPositions limit).filter fun p => p.id ≠ pos.id)) ↔
      0 ≤ a.realizedPnl ∨ ∃ p ∈ db.listPositions limit, p.id ≠ pos.id ∧
        ∃ o, p.outcome = some o ∧ o.Ends ∧ ClosedAfter pos a.closedAt p o := by
  obtain ⟨x, y, hsplit, hx, hy⟩ := listPositions_split hids hmem
  have hkeep : ∀ l : List PositionRow, (∀ p ∈ l, p.id ≠ pos.id) →
      (l.map fun p => if p.id = row.id then row else p) = l := by
    intro l hl
    conv_rhs => rw [← List.map_id l]
    exact List.map_congr_left fun p hp => if_neg (hrow ▸ hl p hp)
  have hslice : (db.setRow row).listPositions limit = x ++ row :: y := by
    rw [listPositions_setRow, hsplit, List.map_append, List.map_cons, hkeep x, hkeep y, hrow,
      if_pos rfl]
    · exact fun p hp => (hy p hp).ne
    · exact fun p hp => (hx p hp).ne'
  have hothers : (x ++ row :: y).filter (fun p => decide (p.id ≠ pos.id)) = x ++ y := by
    rw [List.filter_append, List.filter_cons_of_neg (by simp [hrow]),
      List.filter_eq_self.mpr fun p hp => by simpa using (hx p hp).ne',
      List.filter_eq_self.mpr fun p hp => by simpa using (hy p hp).ne]
  have : Std.Total fun p q : ClosedOutcome => q.closedAt ≤ p.closedAt := ⟨fun p q => le_total _ _⟩
  have : IsTrans ClosedOutcome fun p q => q.closedAt ≤ p.closedAt :=
    ⟨fun p q r h1 h2 => h2.trans h1⟩
  obtain ⟨s, t, hwith, hwithout, hs⟩ := StableSort.insertionSort_split
    (r := fun p q : ClosedOutcome => q.closedAt ≤ p.closedAt) (x.filterMap PositionRow.outcome) a
    (y.filterMap PositionRow.outcome)
  have hwith' : closedOutcomes (x ++ row :: y) = s ++ a :: t := by
    unfold closedOutcomes
    rw [List.filterMap_append, List.filterMap_cons_some ha]
    exact hwith
  have hwithout' : closedOutcomes (x ++ y) = s ++ t := by
    unfold closedOutcomes
    rw [List.filterMap_append]
    exact hwithout
  rw [hslice, hothers, hwith', hwithout', lossStreak_reconciled hrec]
  refine or_congr_right ?_
  constructor
  · rintro ⟨o, ho, hends⟩
    rcases (hs o).mp ho with ⟨ho, hle⟩ | ⟨ho, hlt⟩
    · obtain ⟨p, hp, hpo⟩ := List.mem_filterMap.mp ho
      refine ⟨p, hsplit ▸ List.mem_append_left _ hp, (hx p hp).ne', o, hpo, hends, ?_⟩
      rcases lt_or_eq_of_le hle with h | h
      · exact .inl h
      · exact .inr ⟨h, hx p hp⟩
    · obtain ⟨p, hp, hpo⟩ := List.mem_filterMap.mp ho
      exact ⟨p, hsplit ▸ List.mem_append_right _ (List.mem_cons_of_mem _ hp), (hy p hp).ne, o, hpo,
        hends, .inl (not_le.mp hlt)⟩
  · rintro ⟨p, hp, hne, o, hpo, hends, hafter⟩
    refine ⟨o, (hs o).mpr ?_, hends⟩
    rw [hsplit] at hp
    rcases List.mem_append.mp hp with hp | hp
    · refine .inl ⟨List.mem_filterMap.mpr ⟨p, hp, hpo⟩, ?_⟩
      exact hafter.elim le_of_lt fun h => h.1.le
    · rcases List.mem_cons.mp hp with rfl | hp
      · exact absurd rfl hne
      · refine .inr ⟨List.mem_filterMap.mpr ⟨p, hp, hpo⟩, not_le.mpr ?_⟩
        rcases hafter with h | ⟨-, hid⟩
        · exact h
        · exact absurd hid (hy p hp).asymm

theorem attempt_price {db : Db} {i : ℕ} {p : PositionRow} (h : db.get i = some p) (e : Attempt) :
    ∃ q, (db.attempt e).get i = some q ∧ q.avgEntryPrice = p.avgEntryPrice := by
  rcases attempt_get h e with h | ⟨-, -, ⟨a, -, h⟩ | ⟨a, -, h⟩⟩
  · exact ⟨p, h, rfl⟩
  · exact ⟨_, h, rfl⟩
  · refine ⟨_, h, ?_⟩
    unfold Db.soldRow
    dsimp only
    split_ifs <;> rfl

/-- The entry price of a position is the same whenever it is read. -/
theorem price_run {db db' : Db} {es : List Attempt} (hrun : LedgerRun db es db') {i : ℕ}
    {p : PositionRow} (h : db.get i = some p) :
    ∃ q, db'.get i = some q ∧ q.avgEntryPrice = p.avgEntryPrice := by
  induction hrun with
  | nil => exact ⟨p, h, rfl⟩
  | snoc _ hstep ih =>
    obtain ⟨q, hq, hprice⟩ := ih
    obtain ⟨-, rfl⟩ := hstep
    obtain ⟨r, hr, hprice'⟩ := attempt_price hq _
    exact ⟨r, hr, hprice'.trans hprice⟩

/-- The close added nothing to the PnL of the position, and the streak reads as
without it. -/
structure BookedAtZero (pos row : PositionRow) (db' : Db) : Prop where
  pnl : row.realizedPnl.getD 0 = pos.realizedPnl.getD 0
  streak : lossStreak (closedOutcomes (db'.listPositions gateLimit)) =
    lossStreak (closedOutcomes ((db'.listPositions gateLimit).filter fun p => p.id ≠ pos.id))

/-- No fee was paid on the buy, and what the position has realized so far is no
loss, or the kill switch does not read the position, or a later close ends the
streak. -/
def ClosesAtZero (db : Db) (pos : PositionRow) (ts : ℚ) : Prop :=
  (∀ b ∈ db.fillsOf pos.id .buy, b.fee = 0) ∧
    (0 ≤ pos.realizedPnl.getD 0 ∨ pos ∉ db.listPositions gateLimit ∨
      ∃ p ∈ db.listPositions gateLimit, p.id ≠ pos.id ∧
        ∃ o, p.outcome = some o ∧ o.Ends ∧ ClosedAfter pos ts p o)

theorem mem_listPositions {db : Db} {limit : ℕ} {p : PositionRow} (h : p ∈ db.listPositions limit) :
    p ∈ db.positions :=
  (List.mem_insertionSort _).mp (List.mem_of_mem_take h)

/-- A row outside the slice does not count, closed or not. -/
theorem streak_outside {db : Db} (hids : (db.positions.map PositionRow.id).Nodup) {limit : ℕ}
    {pos row : PositionRow} (hpos : pos ∈ db.positions) (hout : pos ∉ db.listPositions limit)
    (hrow : row.id = pos.id) :
    ((db.setRow row).listPositions limit).filter (fun p => p.id ≠ pos.id) =
      (db.setRow row).listPositions limit := by
  rw [List.filter_eq_self]
  intro p hp
  rw [listPositions_setRow] at hp
  obtain ⟨q, hq, rfl⟩ := List.mem_map.mp hp
  have hne : q.id ≠ pos.id := fun h =>
    hout (List.inj_on_of_nodup_map hids (mem_listPositions hq) hpos h ▸ hq)
  rw [if_neg (hrow ▸ hne)]
  simpa using hne

/-- A reconciliation close of any position of any ledger adds nothing to its PnL
and leaves the streak as it is without it, if and only if no fee was paid on its
buy and what it has realized so far is no loss the streak would count. -/
theorem reconciled_close_zero_iff {es es' : List Attempt} {db db' db'' : Db} {held : HeldPosition}
    {ts : ℚ} {row : PositionRow} (h : LedgerRun Db.empty es db) (hheld : held ∈ db.getOpenPositions)
    (h' : LedgerRun db es' db')
    (hclose : db'.closePosition held.positionId (reconciledClose held ts) = .ok (row, db'')) :
    ∃ pos, db'.get held.positionId = some pos ∧
      (BookedAtZero pos row db'' ↔ ClosesAtZero db' pos ts) := by
  obtain ⟨pos, hd, hrow⟩ := closePosition_ok hclose
  refine ⟨pos, hd.found, ?_⟩
  have hinv0 := ledgerInv_run h ledgerInv_empty
  have hinv := ledgerInv_run h' hinv0
  have hmem := (Db.get_mem hd.found).1
  have hprice : held.avgEntryPrice = pos.avgEntryPrice := by
    obtain ⟨p, hp, rfl⟩ := List.mem_map.mp hheld
    obtain ⟨q, hq, hqp⟩ := price_run h' (hinv0.get_eq (List.mem_of_mem_filter hp))
    obtain rfl : q = pos := Option.some.inj (hq.symm.trans hd.found)
    exact hqp.symm
  obtain ⟨b, hb⟩ := hinv.projects pos hmem
  have hqty : 0 < pos.qty := hb.held hd.wasOpen
  have hgain : db'.realizedGainOf pos held.avgEntryPrice pos.qty 0 = -(b.fee / b.qty * pos.qty) := by
    rw [Db.realizedGainOf, hb.buyFee, hprice]
    ring
  have hfee : (∀ f ∈ db'.fillsOf pos.id .buy, f.fee = 0) ↔ b.fee / b.qty * pos.qty = 0 := by
    rw [hb.buy]
    simp [hqty.ne', hb.bought.ne']
  set a : ClosedOutcome := ⟨ts, pos.realizedPnl.getD 0 + -(b.fee / b.qty * pos.qty),
    some .reconciled⟩ with ha
  have hout : row.outcome = some a := by
    rw [hrow, ha, ← hgain]
    rfl
  have hpnl : row.realizedPnl.getD 0 = pos.realizedPnl.getD 0 ↔ b.fee / b.qty * pos.qty = 0 := by
    have hr : row.realizedPnl.getD 0 = pos.realizedPnl.getD 0 + -(b.fee / b.qty * pos.qty) := by
      rw [hrow, ← hgain]
      rfl
    rw [hr, add_eq_left, neg_eq_zero]
  have hid : row.id = pos.id := by rw [hrow]; rfl
  -- the close writes the row back into the slice the kill switch reads next
  have hslice : db''.listPositions gateLimit = (db'.setRow row).listPositions gateLimit := by
    rw [hd.after]
    rfl
  have hstreak : b.fee / b.qty * pos.qty = 0 →
      (lossStreak (closedOutcomes (db''.listPositions gateLimit)) =
          lossStreak (closedOutcomes
            ((db''.listPositions gateLimit).filter fun p => p.id ≠ pos.id)) ↔
        0 ≤ pos.realizedPnl.getD 0 ∨ pos ∉ db'.listPositions gateLimit ∨
          ∃ p ∈ db'.listPositions gateLimit, p.id ≠ pos.id ∧
            ∃ o, p.outcome = some o ∧ o.Ends ∧ ClosedAfter pos ts p o) := by
    intro hzero
    rw [hslice]
    by_cases hin : pos ∈ db'.listPositions gateLimit
    · rw [streak_without_iff hinv.nodup hin hid hout rfl]
      simp only [ha, hzero, neg_zero, add_zero, hin, not_true_eq_false, false_or]
    · rw [streak_outside hinv.nodup hmem hin hid]
      simp [hin]
  constructor
  · intro hbooked
    have hzero := hpnl.mp hbooked.pnl
    exact ⟨hfee.mpr hzero, (hstreak hzero).mp hbooked.streak⟩
  · rintro ⟨hnofee, hrest⟩
    have hzero := hfee.mp hnofee
    exact ⟨hpnl.mpr hzero, (hstreak hzero).mpr hrest⟩

/-- A run of one buy of 10 shares, then the sells. -/
def openedWith (fee : ℚ) (sells : List SellArgs) : List Attempt :=
  ⟨.openPosition { sampleOpen with fee := fee }, none⟩ :: sells.map fun a => ⟨.recordSell 1 a, none⟩

def lossSell : SellArgs := { soldQty := 4, sellPrice := 1 / 5, ts := 2, closeReason := .stopLoss }

def ledgerAfter (fee : ℚ) (sells : List SellArgs) : Db :=
  (openedWith fee sells).foldl Db.attempt .empty

/-- What the close of position 1 at 5 leaves: its PnL, and the streak with it and
without. -/
def reconciledReads (db : Db) (held : HeldPosition) : Option (Option ℚ × ℕ × ℕ) :=
  (db.closePosition 1 (reconciledClose held 5)).toOption.map fun r =>
    (r.1.realizedPnl, lossStreak (closedOutcomes (r.2.listPositions gateLimit)),
      lossStreak (closedOutcomes ((r.2.listPositions gateLimit).filter fun p => p.id ≠ 1)))

theorem reconciledReads_some {db : Db} {held : HeldPosition} {pnl : Option ℚ} {n m : ℕ}
    (h : reconciledReads db held = some (pnl, n, m)) :
    ∃ row db', db.closePosition 1 (reconciledClose held 5) = .ok (row, db') ∧
      row.realizedPnl = pnl ∧ lossStreak (closedOutcomes (db'.listPositions gateLimit)) = n ∧
      lossStreak (closedOutcomes ((db'.listPositions gateLimit).filter fun p => p.id ≠ 1)) = m := by
  obtain ⟨⟨row, db'⟩, hr, hv⟩ := Option.map_eq_some_iff.mp h
  simp only [Prod.mk.injEq] at hv
  exact ⟨row, db', toOption_eq_some.mp hr, hv.1, hv.2.1, hv.2.2⟩

/-- The position as it is held after the sells, of which `left` is left. -/
def heldAfter (left : ℚ) : HeldPosition := { (openRow 1 sampleOpen).toHeld with qty := left }

/-- Two positions are opened, and part of the first is sold at a gain. -/
def gainCalls : List Attempt :=
  [⟨.openPosition { sampleOpen with fee := 0 }, none⟩,
    ⟨.openPosition { sampleOpen with marketId := "m2", tokenId := "t2", conditionId := "0xc2" }, none⟩,
    ⟨.recordSell 1 { lossSell with sellPrice := 3 / 5, closeReason := .takeProfit }, none⟩]

def lossCalls : List Attempt :=
  [⟨.recordSell 2 lossSell, none⟩, ⟨.recordSell 2 { lossSell with soldQty := 6, ts := 4 }, none⟩]

def gainDb : Db := gainCalls.foldl Db.attempt .empty

def gainLossDb : Db := lossCalls.foldl Db.attempt gainDb

/-- The rest of the first position is held when the wallet is read, and gone when the second
has been closed at a loss: its close books nothing and leaves the streak at that loss. -/
theorem reconciled_close_zero_iff_sample :
    ∃ row db' pos, gainLossDb.closePosition 1 (reconciledClose (heldAfter 6) 5) = .ok (row, db') ∧
      BookedAtZero pos row db' ∧ row.realizedPnl = some (4 / 5) ∧
      lossStreak (closedOutcomes (db'.listPositions gateLimit)) = 1 := by
  obtain ⟨row, db', hclose, hpnl, hstreak, -⟩ := reconciledReads_some
    (show reconciledReads gainLossDb (heldAfter 6) = some (some (4 / 5), 1, 1) by decide +kernel)
  have hgain : LedgerRun Db.empty gainCalls gainDb := ledgerRun_of_positive fun e he => by
    simp only [gainCalls, List.mem_cons, List.not_mem_nil, or_false] at he
    rcases he with rfl | rfl | rfl <;> norm_num [Call.Positive, sampleOpen, lossSell]
  have hloss : LedgerRun gainDb lossCalls gainLossDb := ledgerRun_of_positive fun e he => by
    simp only [lossCalls, List.mem_cons, List.not_mem_nil, or_false] at he
    rcases he with rfl | rfl <;> norm_num [Call.Positive, lossSell]
  have hmem : heldAfter 6 ∈ gainDb.getOpenPositions := by decide +kernel
  obtain ⟨pos, hget, hiff⟩ := reconciled_close_zero_iff hgain hmem hloss hclose
  refine ⟨row, db', pos, hclose, hiff.mpr ?_, hpnl, hstreak⟩
  have hread : (gainLossDb.get 1).map (fun p => (p.id, p.realizedPnl.getD 0)) = some (1, 4 / 5) := by
    decide +kernel
  rw [show gainLossDb.get 1 = some pos from hget, Option.map_some, Option.some.injEq, Prod.mk.injEq] at hread
  obtain ⟨hid, hgained⟩ := hread
  refine ⟨?_, .inl (by rw [hgained]; norm_num)⟩
  rw [hid]
  decide +kernel

theorem not_bookedAtZero {db db' : Db} {row : PositionRow} {n : ℕ}
    (h : lossStreak (closedOutcomes (db'.listPositions gateLimit)) = n + 1)
    (h' : lossStreak (closedOutcomes ((db'.listPositions gateLimit).filter fun p => p.id ≠ 1)) = n)
    (pos : PositionRow) (hpos : db.get 1 = some pos) : ¬ BookedAtZero pos row db' := by
  intro hbooked
  have hstreak := hbooked.streak
  rw [(Db.get_mem hpos).2, h, h'] at hstreak
  omega

/-- A buy fee of 0.20 makes the reconciled close a loss of as much, which the
streak counts; after a sell at a loss the close adds nothing and the streak
counts the loss. -/
theorem reconciled_closes_count :
    (∃ row db', (ledgerAfter (1 / 5) []).closePosition 1 (reconciledClose (heldAfter 10) 5) =
        .ok (row, db') ∧ row.realizedPnl = some (-1 / 5) ∧
      ∀ pos, (ledgerAfter (1 / 5) []).get 1 = some pos → ¬ BookedAtZero pos row db') ∧
    ∃ row db', (ledgerAfter 0 [lossSell]).closePosition 1 (reconciledClose (heldAfter 6) 5) =
        .ok (row, db') ∧ row.realizedPnl = some (-4 / 5) ∧
      ∀ pos, (ledgerAfter 0 [lossSell]).get 1 = some pos → ¬ BookedAtZero pos row db' := by
  constructor
  · obtain ⟨row, db', hclose, hpnl, hwith, hwithout⟩ := reconciledReads_some
      (show reconciledReads (ledgerAfter (1 / 5) []) (heldAfter 10) = some (some (-1 / 5), 0 + 1, 0) by
        decide +kernel)
    exact ⟨row, db', hclose, hpnl, not_bookedAtZero hwith hwithout⟩
  · obtain ⟨row, db', hclose, hpnl, hwith, hwithout⟩ := reconciledReads_some
      (show reconciledReads (ledgerAfter 0 [lossSell]) (heldAfter 6) = some (some (-4 / 5), 0 + 1, 0) by
        decide +kernel)
    exact ⟨row, db', hclose, hpnl, not_bookedAtZero hwith hwithout⟩

end OpenPoly
