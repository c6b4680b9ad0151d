import OpenPoly.Proofs.Store

/-! The position table is a projection of the fill ledger over every sequence of
calls: each row is the account of its fills, closed exactly by the calls that
close, and frozen from then on. -/

namespace OpenPoly

open Transition Holding

/-- One call of a sequence, on the tables as the calls before left them. -/
def ledgerStep (db : Db) (e : Attempt) (db' : Db) : Prop := db' = db.attempt e

/-- The sequences of calls with positive quantities, any of which may fail. -/
abbrev LedgerRun : Db → List Attempt → Db → Prop :=
  Run (guarded (fun _ e => e.call.Positive) ledgerStep)

theorem ledgerRun_of_positive {db : Db} {es : List Attempt} (h : ∀ e ∈ es, e.call.Positive) :
    LedgerRun db es (es.foldl Db.attempt db) :=
  (run_foldl Db.attempt db es).guard fun e he _ => h e he

theorem ledgerInv_run {db db' : Db} {es : List Attempt} (h : LedgerRun db es db')
    (h0 : LedgerInv db) : LedgerInv db' := by
  refine h.invariant ?_ h0
  rintro db e _ hi ⟨hp, rfl⟩
  exact ledgerInv_attempt hi hp

theorem closed_attempt {db : Db} (h : LedgerInv db) (e : Attempt) (i : ℕ) :
    (∃ p ∈ (db.attempt e).positions, p.id = i ∧ p.status = .closed) ↔
      (∃ p ∈ db.positions, p.id = i ∧ p.status = .closed) ∨ ClosesRow i db e := by
  constructor
  · rintro ⟨p, hp, hid, hcl⟩
    rcases attempt_cases h e with heq | ⟨a, -, -, heq⟩ |
      ⟨j, pos, row, fill, b, hd, hb, hs, -, -, hcloses⟩
    · exact .inl ⟨p, heq ▸ hp, hid, hcl⟩
    · rw [heq] at hp
      rcases List.mem_append.mp hp with hp | hp
      · exact .inl ⟨p, hp, hid, hcl⟩
      · obtain rfl := List.mem_singleton.mp hp
        cases hcl
    · rw [hd.after] at hp
      rcases Db.mem_setRow hp with rfl | ⟨hp, -⟩
      · have hij : j = i := by rw [← (Db.get_mem hd.found).2, ← hs.id, hid]
        exact .inr (hij ▸ hcloses hcl)
      · exact .inl ⟨p, hp, hid, hcl⟩
  · rintro (⟨p, hp, hid, hcl⟩ | hc)
    · rcases attempt_cases h e with heq | ⟨a, -, -, heq⟩ |
        ⟨j, pos, row, fill, b, hd, hb, hs, -, -, -⟩
      · exact ⟨p, by rwa [heq], hid, hcl⟩
      · exact ⟨p, by rw [heq]; exact List.mem_append_left _ hp, hid, hcl⟩
      · refine ⟨p, ?_, hid, hcl⟩
        rw [hd.after]
        refine Db.mem_setRow_of_ne hp fun heq => ?_
        -- the disposed row was open, so it is not this one
        have := h.eq_of_id hp (Db.get_mem hd.found).1 (heq.trans hs.id)
        rw [this, hd.wasOpen] at hcl
        cases hcl
    · exact hc.closed

/-- The closed ids are the ids some call has closed. -/
theorem closed_iff_happened {es : List Attempt} {db : Db} (h : LedgerRun Db.empty es db) (i : ℕ) :
    (∃ p ∈ db.positions, p.id = i ∧ p.status = .closed) ↔
      Happened ledgerStep (ClosesRow i) Db.empty es := by
  induction h with
  | nil => exact ⟨fun ⟨p, hp, _⟩ => by simp [Db.empty] at hp, fun hh => (not_happened_nil hh).elim⟩
  | @snoc es t e u hrun hstep ih =>
    have hinv := ledgerInv_run hrun ledgerInv_empty
    have hplain : Run ledgerStep Db.empty es t := hrun.mono fun _ _ _ hs => hs.2
    have hfold : t = es.foldl Db.attempt Db.empty := hplain.eq_foldl
    obtain ⟨-, rfl⟩ := hstep
    rw [closed_attempt hinv, ih, hfold]
    exact happened_snoc.symm

/-- A closed row and its fills outlast any call. -/
theorem frozen_attempt {db : Db} (h : LedgerInv db) (e : Attempt) {p : PositionRow}
    (hp : p ∈ db.positions) (hcl : p.status = .closed) :
    p ∈ (db.attempt e).positions ∧ ∀ act, (db.attempt e).fillsOf p.id act = db.fillsOf p.id act := by
  rcases attempt_cases h e with heq | ⟨a, -, -, heq⟩ |
    ⟨j, pos, row, fill, b, hd, hb, hs, -, hi, -⟩
  · rw [heq]
    exact ⟨hp, fun _ => rfl⟩
  · rw [heq]
    refine ⟨List.mem_append_left _ hp, fun act => ?_⟩
    rw [Db.opened_fillsOf, if_neg]
    rintro ⟨hid, -⟩
    have hfresh := nextId_notMem (db.positions.map PositionRow.id)
    exact hfresh (hid.symm ▸ List.mem_map_of_mem hp)
  · have hne : p.id ≠ pos.id := by
      intro heq
      rw [h.eq_of_id hp (Db.get_mem hd.found).1 heq, hd.wasOpen] at hcl
      cases hcl
    constructor
    · rw [hd.after]
      exact Db.mem_setRow_of_ne hp (hs.id ▸ hne)
    · intro act
      rw [hd.fillsOf, if_neg]
      rintro ⟨hid, -⟩
      exact hne (hid.symm.trans hi)

theorem frozen_run {db db' : Db} {es : List Attempt} (h : LedgerRun db es db') (hinv : LedgerInv db)
    {p : PositionRow} (hp : p ∈ db.positions) (hcl : p.status = .closed) :
    p ∈ db'.positions ∧ ∀ act, db'.fillsOf p.id act = db.fillsOf p.id act := by
  induction h with
  | nil => exact ⟨hp, fun _ => rfl⟩
  | snoc hrun hstep ih =>
    obtain ⟨-, rfl⟩ := hstep
    obtain ⟨hmem, hf⟩ := frozen_attempt (ledgerInv_run hrun hinv) _ ih.1 hcl
    exact ⟨hmem, fun act => (hf act).trans (ih.2 act)⟩

/-- What one sell fill books: its proceeds over the entry price, less its fee
and its share of the buy fee. -/
def FillRow.booked (b f : FillRow) : ℚ := (f.price - b.price) * f.qty - f.fee - b.fee / b.qty * f.qty

theorem Projects.open_qty {db : Db} {p : PositionRow} {b : FillRow} (h : Projects db p b)
    (ho : p.status = .open) :
    p.qty = b.qty - ((db.fillsOf p.id .sell).map FillRow.qty).sum := by
  have hopen : (foldFills b (db.fillsOf p.id .sell)).isOpen = true :=
    h.fold ▸ (isOpen_account p).mpr ho
  have hq := Account.fold_qty b.terms b.qty _ hopen
  rw [← foldFills, ← h.fold, List.map_map] at hq
  exact hq

theorem Projects.realized {db : Db} {p : PositionRow} {b : FillRow} (h : Projects db p b) :
    p.realizedPnl.getD 0 = ((db.fillsOf p.id .sell).map (FillRow.booked b)).sum := by
  have hr := Account.fold_realized b.terms b.qty ((db.fillsOf p.id .sell).map FillRow.sale)
  rw [← foldFills, ← h.fold, List.map_map] at hr
  exact hr

/-- Over every sequence of calls with positive quantities, each position row is
the fold of its one buy fill and its sell fills; the calls that close it are the
only ones that do; at most one row per market and side is open; and a closed
row and its fills never change again. -/
theorem ledger_projection {es : List Attempt} {db : Db} (h : LedgerRun Db.empty es db) :
    (∀ p ∈ db.positions, ∃ b, db.fillsOf p.id .buy = [b] ∧ b.price = p.avgEntryPrice ∧
      p.account = foldFills b (db.fillsOf p.id .sell) ∧
      (p.status = .open → p.qty = b.qty - ((db.fillsOf p.id .sell).map FillRow.qty).sum) ∧
      (p.status = .closed ↔ Happened ledgerStep (ClosesRow p.id) Db.empty es) ∧
      p.realizedPnl.getD 0 = ((db.fillsOf p.id .sell).map (FillRow.booked b)).sum ∧
      ((db.fillsOf p.id .sell).map FillRow.qty).sum ≤ b.qty) ∧
    (∀ p ∈ db.positions, ∀ q ∈ db.positions, p.status = .open → q.status = .open →
      p.marketId = q.marketId → p.side = q.side → p = q) ∧
    ∀ es' db', LedgerRun db es' db' → ∀ p ∈ db.positions, p.status = .closed →
      db'.get p.id = some p ∧ ∀ act, db'.fillsOf p.id act = db.fillsOf p.id act := by
  have hinv := ledgerInv_run h ledgerInv_empty
  refine ⟨fun p hp => ?_, hinv.oneOpen, fun es' db' h' p hp hcl => ?_⟩
  · obtain ⟨b, hb⟩ := hinv.projects p hp
    refine ⟨b, hb.buy, hb.price, hb.fold, hb.open_qty, ?_, hb.realized, hb.sold⟩
    rw [← closed_iff_happened h]
    constructor
    · exact fun hcl => ⟨p, hp, rfl, hcl⟩
    · rintro ⟨q, hq, hid, hcl⟩
      rwa [← hinv.eq_of_id hq hp hid]
  · obtain ⟨hmem, hf⟩ := frozen_run h' hinv hp hcl
    exact ⟨(ledgerInv_run h' hinv).get_eq hmem, hf⟩

def sampleOpen : OpenArgs where
  marketId := "m1"
  side := .yes
  tokenId := "t1"
  conditionId := "0xc1"
  price := 2 / 5
  qty := 10
  ts := 1
  fee := 1 / 5

def sampleSell (qty : ℚ) : SellArgs where
  soldQty := qty
  sellPrice := 1 / 2
  ts := 2
  closeReason := .takeProfit
  fee := 1 / 10

/-- A buy, a refused duplicate, a partial sell, an outage, the rest. -/
def sampleCalls : List Attempt :=
  [⟨.openPosition sampleOpen, none⟩, ⟨.openPosition sampleOpen, none⟩,
    ⟨.recordSell 1 (sampleSell 4), none⟩,
    ⟨.recordSell 1 (sampleSell 6), some .operationalError⟩, ⟨.recordSell 1 (sampleSell 6), none⟩]

theorem ledger_projection_sample :
    ((sampleCalls.foldl Db.attempt .empty).get 1).map (fun p => (p.status, p.realizedPnl)) =
      some (.closed, some (3 / 5)) ∧
    (∀ p ∈ (sampleCalls.foldl Db.attempt .empty).positions,
      (p.status = .closed ↔ Happened ledgerStep (ClosesRow p.id) Db.empty sampleCalls)) := by
  have hrun : LedgerRun Db.empty sampleCalls (sampleCalls.foldl Db.attempt .empty) :=
    (((((Run.nil.snoc ⟨by norm_num [Call.Positive, sampleOpen], rfl⟩).snoc
      ⟨by norm_num [Call.Positive, sampleOpen], rfl⟩).snoc
      ⟨by norm_num [Call.Positive, sampleSell], rfl⟩).snoc
      ⟨by norm_num [Call.Positive, sampleSell], rfl⟩).snoc
      ⟨by norm_num [Call.Positive, sampleSell], rfl⟩)
  refine ⟨by decide +kernel, fun p hp => ?_⟩
  obtain ⟨b, -, -, -, -, hclosed, -⟩ := (ledger_projection hrun).1 p hp
  exact hclosed

end OpenPoly
