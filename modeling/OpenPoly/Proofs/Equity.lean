import OpenPoly.Lib.StableSort
import OpenPoly.Spec.Equity
import OpenPoly.Proofs.Ledger

/-! The equity curve against the ledger it is rebuilt from: at every point the
equity is what the fills up to then paid and took in, plus the marked value of
what they left. -/

namespace OpenPoly

open Transition

/-- The fills of one position and action stamped up to `t`. -/
def Db.fillsUpTo (db : Db) (positionId : ℕ) (action : FillAction) (t : ℚ) : List FillRow :=
  (db.fillsOf positionId action).filter fun f => f.ts ≤ t

/-- What a position is worth at `t`: sell proceeds less buy cost and all fees
over the fills up to then, plus what is left of it at the mark. Of the buys the
part `share` counts. -/
def Db.cashFlow (db : Db) (positionId : ℕ) (share mark t : ℚ) : ℚ :=
  let buys := db.fillsUpTo positionId .buy t
  let sells := db.fillsUpTo positionId .sell t
  (sells.map fun f => f.price * f.qty - f.fee).sum -
    (buys.map fun f => (f.price * f.qty + f.fee) * share).sum +
      mark * ((buys.map fun f => f.qty * share).sum - (sells.map FillRow.qty).sum)

/-- The part of a position's buys the ledger accounts for: of a closed one what
its sells disposed of, without the residue dropped at the close. -/
def Db.keptShare (db : Db) (p : PositionRow) : ℚ :=
  match p.status with
  | .open => 1
  | .closed => ((db.fillsOf p.id .sell).map FillRow.qty).sum /
      ((db.fillsOf p.id .buy).map FillRow.qty).sum

/-- `mark` is the last level-1 bid at or before `t`, the entry price if there is none. -/
def IsMark (snapshots : List OrderBookSnapshot) (p : PositionRow) (t mark : ℚ) : Prop :=
  (mark = p.avgEntryPrice ∧ ∀ s ∈ snapshots, s.tokenId = p.tokenId → s.recordedAt ≤ t → s.bids = []) ∨
    ∃ s ∈ snapshots, s.tokenId = p.tokenId ∧ s.recordedAt ≤ t ∧ s.bids.head?.map Prod.fst = some mark ∧
      ∀ s' ∈ snapshots, s'.tokenId = p.tokenId → s'.recordedAt ≤ t → s'.bids ≠ [] →
        s'.recordedAt ≤ s.recordedAt

/-- The mark the curve puts on a position at `t`. -/
def markOf (snapshots : List OrderBookSnapshot) (p : PositionRow) (t : ℚ) : ℚ :=
  (markAt (tokenMarks snapshots p.tokenId) t).getD p.avgEntryPrice

def Db.InOrder (db : Db) (p : PositionRow) : Prop :=
  ∀ f ∈ db.fillsOf p.id .sell, p.openedAt ≤ f.ts ∧ ∀ c ∈ p.closedAt, f.ts ≤ c

/-- No sell of part of a position that is held at `t`: none while it is open,
one of all it had when it closes later. -/
def Db.Unsplit (db : Db) (p : PositionRow) (t : ℚ) : Prop :=
  p.openedAt ≤ t → (∀ c ∈ p.closedAt, t < c) →
    (db.fillsOf p.id .sell).length = if p.status = .open then 0 else 1

theorem mem_bidRows {snapshots : List OrderBookSnapshot} {tokenId : String} {r : ℚ × ℚ} :
    r ∈ bidRows snapshots tokenId ↔ ∃ s ∈ snapshots, s.tokenId = tokenId ∧ s.recordedAt = r.1 ∧
      s.bids.head?.map Prod.fst = some r.2 := by
  rw [bidRows, (List.perm_insertionSort _ _).mem_iff, List.mem_filterMap]
  constructor
  · rintro ⟨s, hs, hr⟩
    split_ifs at hr with htok
    obtain ⟨level, hlevel, rfl⟩ := Option.map_eq_some_iff.mp hr
    exact ⟨s, hs, htok, rfl, by rw [hlevel]; rfl⟩
  · rintro ⟨s, hs, htok, hts, hbid⟩
    obtain ⟨level, hlevel, heq⟩ := Option.map_eq_some_iff.mp hbid
    refine ⟨s, hs, ?_⟩
    rw [if_pos htok, hlevel, Option.map_some, heq, hts]

theorem bidRows_sorted (snapshots : List OrderBookSnapshot) (tokenId : String) :
    (bidRows snapshots tokenId).Pairwise fun r r' => r.1 ≤ r'.1 := by
  have : IsTrans (ℚ × ℚ) fun r r' => r.1 ≤ r'.1 := ⟨fun _ _ _ h h' => le_trans h h'⟩
  have : Std.Total fun r r' : ℚ × ℚ => r.1 ≤ r'.1 := ⟨fun _ _ => le_total _ _⟩
  exact List.pairwise_insertionSort _ _

/-- In a series ascending by its stamps the hold-last lookup finds the last row
at or before `t`. -/
theorem markAt_rows {rows : List (ℚ × ℚ)} (h : rows.Pairwise fun r r' => r.1 ≤ r'.1) (t : ℚ) :
    markAt (rows.map Prod.fst, rows.map Prod.snd) t =
      ((rows.filter fun r => r.1 ≤ t).getLast?).map Prod.snd := by
  have hclosed : rows.Pairwise fun r r' => decide (r'.1 ≤ t) = true → decide (r.1 ≤ t) = true := by
    refine h.imp fun {r r'} hrr hr' => ?_
    simp only [decide_eq_true_eq] at hr' ⊢
    exact hrr.trans hr'
  obtain ⟨htake, -⟩ := StableSort.takeWhile_eq_filter_of_closed hclosed
  have hlen : bisectRight (rows.map Prod.fst) t = (rows.filter fun r => r.1 ≤ t).length := by
    rw [bisectRight, List.takeWhile_map, List.length_map, ← htake]
    rfl
  have hprefix : rows.filter (fun r => r.1 ≤ t) <+: rows := htake ▸ List.takeWhile_prefix _
  rw [markAt, hlen]
  generalize rows.filter (fun r => r.1 ≤ t) = upTo at hprefix
  obtain ⟨later, rfl⟩ := hprefix
  split_ifs with hzero
  · rw [List.eq_nil_of_length_eq_zero hzero]
    rfl
  · rw [List.getLast?_eq_getElem?, List.getElem?_map, List.getElem?_append_left (by omega)]

/-- What an ascending series ends with is at or after everything in it. -/
theorem le_of_getLast? {rows : List (ℚ × ℚ)} (h : rows.Pairwise fun r r' => r.1 ≤ r'.1)
    {last : ℚ × ℚ} (hlast : rows.getLast? = some last) {r : ℚ × ℚ} (hr : r ∈ rows) :
    r.1 ≤ last.1 := by
  obtain ⟨ys, rfl⟩ := List.getLast?_eq_some_iff.mp hlast
  rcases List.mem_append.mp hr with hr | hr
  · exact (List.pairwise_append.mp h).2.2 r hr last (List.mem_singleton_self _)
  · rw [List.mem_singleton.mp hr]

theorem isMark_markOf (snapshots : List OrderBookSnapshot) (p : PositionRow) (t : ℚ) :
    IsMark snapshots p t (markOf snapshots p t) := by
  have hsorted := bidRows_sorted snapshots p.tokenId
  rw [markOf, tokenMarks, markAt_rows hsorted]
  -- a snapshot with a bid is a row of the series
  have hrow : ∀ s ∈ snapshots, s.tokenId = p.tokenId → s.recordedAt ≤ t → s.bids ≠ [] →
      ∃ r ∈ (bidRows snapshots p.tokenId).filter fun r => r.1 ≤ t, r.1 = s.recordedAt := by
    intro s hs htok hts hbids
    obtain ⟨level, rest, hb⟩ := List.exists_cons_of_ne_nil hbids
    refine ⟨(s.recordedAt, level.1), List.mem_filter.mpr ⟨?_, by simpa using hts⟩, rfl⟩
    exact mem_bidRows.mpr ⟨s, hs, htok, rfl, by rw [hb]; rfl⟩
  cases hlast : ((bidRows snapshots p.tokenId).filter fun r => r.1 ≤ t).getLast? with
  | none =>
    refine .inl ⟨rfl, fun s hs htok hts => ?_⟩
    by_contra hbids
    obtain ⟨r, hr, -⟩ := hrow s hs htok hts hbids
    rw [List.getLast?_eq_none_iff.mp hlast] at hr
    cases hr
  | some last =>
    obtain ⟨hmem, hle⟩ := List.mem_filter.mp (List.mem_of_getLast? hlast)
    obtain ⟨s, hs, htok, hts, hbid⟩ := mem_bidRows.mp hmem
    refine .inr ⟨s, hs, htok, ?_, hbid, fun s' hs' htok' hts' hbids => ?_⟩
    · rw [hts]
      simpa using hle
    · obtain ⟨r, hr, heq⟩ := hrow s' hs' htok' hts' hbids
      rw [← heq, hts]
      exact le_of_getLast? (hsorted.filter _) hlast hr

/-- An open row carries no closing stamp; a closed one its last sell's, and the
quantity of that sell. -/
structure Stamped (db : Db) (p : PositionRow) : Prop where
  opened : p.status = .open → p.closedAt = none
  closed : p.status = .closed → ∃ pre f, db.fillsOf p.id .sell = pre ++ [f] ∧
    p.closedAt = some f.ts ∧ p.qty = f.qty

def StampsRow (pos row : PositionRow) (fill : FillRow) : Prop :=
  (row.status = .open ∧ row.closedAt = pos.closedAt) ∨
    (row.status = .closed ∧ row.closedAt = some fill.ts ∧ row.qty = fill.qty)

/-- The three things an attempt can do, with the stamps a disposal writes. -/
theorem attempt_stamps (db : Db) (e : Attempt) :
    db.attempt e = db ∨ (∃ a, db.attempt e = db.opened a) ∨
    ∃ i pos row fill, Disposal db i pos row fill (db.attempt e) ∧ row.id = pos.id ∧
      fill.positionId = pos.id ∧ fill.action = .sell ∧ StampsRow pos row fill := by
  rcases attempt_effect db e with heq | ⟨a, -, -, heq⟩ | ⟨i, a, r, pos, -, -, -, hd⟩ |
    ⟨i, a, r, pos, -, -, -, hd⟩
  · exact .inl heq
  · exact .inr (.inl ⟨a, heq⟩)
  · exact .inr (.inr ⟨i, pos, _, _, hd, rfl, rfl, rfl, .inr ⟨rfl, rfl, rfl⟩⟩)
  · refine .inr (.inr ⟨i, pos, _, _, hd, soldRow_id _ _ _, rfl, rfl, ?_⟩)
    by_cases hres : pos.qty - min a.soldQty pos.qty < minSellableQty
    · rw [Db.soldRow, if_pos hres]
      exact .inr ⟨rfl, rfl, rfl⟩
    · rw [Db.soldRow, if_neg hres]
      exact .inl ⟨hd.wasOpen, rfl⟩

theorem Stamped.congr {db db' : Db} {p : PositionRow} (h : Stamped db p)
    (hf : db'.fillsOf p.id .sell = db.fillsOf p.id .sell) : Stamped db' p where
  opened := h.opened
  closed := by rw [hf]; exact h.closed

def AllStamped (db : Db) : Prop := ∀ p ∈ db.positions, Stamped db p

theorem allStamped_attempt {db : Db} (h : AllStamped db) (e : Attempt) :
    AllStamped (db.attempt e) := by
  intro p hp
  rcases attempt_stamps db e with heq | ⟨a, heq⟩ | ⟨i, pos, row, fill, hd, hid, hpid, hact, hst⟩
  · rw [heq] at hp ⊢
    exact h p hp
  · rw [heq] at hp ⊢
    rcases List.mem_append.mp hp with hp | hp
    · refine (h p hp).congr ?_
      rw [Db.opened_fillsOf, if_neg (by simp)]
    · rw [List.mem_singleton.mp hp]
      constructor
      · exact fun _ => rfl
      · intro hcl
        cases hcl
  · rw [hd.after] at hp
    rcases Db.mem_setRow hp with rfl | ⟨hp, hne⟩
    · have hsell := hd.fillsOf p.id .sell
      rw [if_pos ⟨hpid.trans hid.symm, hact⟩] at hsell
      rcases hst with ⟨hopen, hstamp⟩ | ⟨hclosed, hstamp, hqty⟩
      · refine ⟨fun _ => ?_, fun hcl => ?_⟩
        · rw [hstamp]
          exact (h pos (Db.get_mem hd.found).1).opened hd.wasOpen
        · cases hopen.symm.trans hcl
      · refine ⟨fun ho => ?_, fun _ => ⟨_, _, hsell, hstamp, hqty⟩⟩
        cases hclosed.symm.trans ho
    · refine (h p hp).congr ?_
      rw [hd.fillsOf, if_neg]
      rintro ⟨hp', -⟩
      exact hne (hp'.symm.trans (hpid.trans hid.symm))

theorem allStamped_run {db : Db} {es : List Attempt} (h : LedgerRun Db.empty es db) :
    AllStamped db := by
  have h0 : AllStamped Db.empty := fun p hp => by cases hp
  refine h.invariant ?_ h0
  rintro db e _ hi ⟨-, rfl⟩
  exact allStamped_attempt hi e

def positionEquity (db : Db) (mark : ℚ) (t : ℚ) (p : PositionRow) : ℚ :=
  if p.closedAt.any (· ≤ t) then p.realizedPnl.getD 0
  else if p.openedAt ≤ t then (mark - p.avgEntryPrice - db.feePerShare p.id) * p.qty
  else 0

theorem closedBy_iff (p : PositionRow) (t : ℚ) :
    p.closedAt.any (· ≤ t) = true ↔ ∃ c ∈ p.closedAt, c ≤ t := by
  cases p.closedAt <;> simp

theorem Projects.feePerShare {db : Db} {p : PositionRow} {b : FillRow} (h : Projects db p b) :
    db.feePerShare p.id = b.fee / b.qty := by
  simp [Db.feePerShare, h.buy]

/-- All a position's fills counted, with `sold` disposed of and nothing left. -/
theorem booked_sum (b : FillRow) (sells : List FillRow) :
    (sells.map (FillRow.booked b)).sum =
      (sells.map fun f => f.price * f.qty - f.fee).sum -
        (b.price + b.fee / b.qty) * (sells.map FillRow.qty).sum := by
  induction sells with
  | nil => simp
  | cons f sells ih =>
    simp only [List.map_cons, List.sum_cons, ih, FillRow.booked]
    ring

theorem fillsUpTo_all {db : Db} {i : ℕ} {act : FillAction} {t : ℚ}
    (h : ∀ f ∈ db.fillsOf i act, f.ts ≤ t) : db.fillsUpTo i act t = db.fillsOf i act := by
  rw [Db.fillsUpTo, List.filter_eq_self]
  simpa using h

theorem fillsUpTo_none {db : Db} {i : ℕ} {act : FillAction} {t : ℚ}
    (h : ∀ f ∈ db.fillsOf i act, t < f.ts) : db.fillsUpTo i act t = [] := by
  rw [Db.fillsUpTo, List.filter_eq_nil_iff]
  simpa using h

/-- A position whose sells are in order, and not of part of it while it is held,
adds its cash flows and its marked rest. -/
theorem positionEquity_eq {db : Db} {p : PositionRow} {b : FillRow} {t : ℚ} (hb : Projects db p b)
    (hst : Stamped db p) (hord : db.InOrder p) (hun : db.Unsplit p t) (mark : ℚ) :
    positionEquity db mark t p = db.cashFlow p.id (db.keptShare p) mark t := by
  have hq : b.qty ≠ 0 := hb.bought.ne'
  have hbuyTs : b.ts = p.openedAt := hb.market.2.2
  by_cases hclosed : p.closedAt.any (· ≤ t) = true
  · -- closed by `t`: every fill counts and nothing is left
    obtain ⟨c, hc, hct⟩ := (closedBy_iff p t).mp hclosed
    have hstatus : p.status = .closed := by
      cases hs : p.status with
      | «open» => rw [hst.opened hs] at hc; cases hc
      | closed => rfl
    obtain ⟨pre, f, hsells, -, -⟩ := hst.closed hstatus
    have hf := hord f (by rw [hsells]; simp)
    have hsell := fillsUpTo_all fun g hg => ((hord g hg).2 c hc).trans hct
    have hbuy : db.fillsUpTo p.id .buy t = [b] := by
      rw [fillsUpTo_all, hb.buy]
      intro g hg
      rw [hb.buy] at hg
      rw [List.mem_singleton.mp hg, hbuyTs]
      exact (hf.1.trans (hf.2 c hc)).trans hct
    rw [positionEquity, if_pos hclosed, hb.realized, booked_sum, Db.cashFlow, hbuy, hsell]
    simp only [Db.keptShare, hstatus, hb.buy, List.map_cons, List.map_nil, List.sum_cons,
      List.sum_nil, add_zero]
    field_simp
    ring
  · have hlater : ∀ c ∈ p.closedAt, t < c := by
      intro c hc
      by_contra hct
      exact hclosed ((closedBy_iff p t).mpr ⟨c, hc, not_lt.mp hct⟩)
    rw [positionEquity, if_neg hclosed]
    by_cases hopened : p.openedAt ≤ t
    · -- held at `t`: the buy alone counts
      have hlen := hun hopened hlater
      have hbuy : db.fillsUpTo p.id .buy t = [b] := by
        rw [fillsUpTo_all, hb.buy]
        intro g hg
        rw [hb.buy] at hg
        rwa [List.mem_singleton.mp hg, hbuyTs]
      have hkept : p.qty = b.qty * db.keptShare p ∧ db.fillsUpTo p.id .sell t = [] := by
        cases hs : p.status with
        | «open» =>
          rw [hs, if_pos rfl, List.length_eq_zero_iff] at hlen
          refine ⟨?_, by rw [Db.fillsUpTo, hlen]; rfl⟩
          rw [hb.open_qty hs, hlen]
          simp [Db.keptShare, hs]
        | closed =>
          obtain ⟨pre, f, hsells, hstamp, hqty⟩ := hst.closed hs
          rw [hs, if_neg (by simp), hsells, List.length_append, List.length_singleton] at hlen
          obtain rfl := List.eq_nil_of_length_eq_zero (by omega : pre.length = 0)
          rw [List.nil_append] at hsells
          constructor
          · simp only [hqty, Db.keptShare, hs, hsells, hb.buy, List.map_cons, List.map_nil,
              List.sum_cons, List.sum_nil, add_zero]
            field_simp
          · refine fillsUpTo_none fun g hg => ?_
            rw [hsells] at hg
            rw [List.mem_singleton.mp hg]
            exact hlater _ hstamp
      rw [if_pos hopened, Db.cashFlow, hbuy, hkept.2, hb.feePerShare, hkept.1, ← hb.price]
      simp only [List.map_cons, List.map_nil, List.sum_cons, List.sum_nil, add_zero]
      field_simp
      ring
    · -- not bought by `t`
      have hsell : db.fillsUpTo p.id .sell t = [] :=
        fillsUpTo_none fun g hg => (not_le.mp hopened).trans_le (hord g hg).1
      have hbuy : db.fillsUpTo p.id .buy t = [] := by
        refine fillsUpTo_none fun g hg => ?_
        rw [hb.buy] at hg
        rw [List.mem_singleton.mp hg, hbuyTs]
        exact not_le.mp hopened
      rw [if_neg hopened, Db.cashFlow, hbuy, hsell]
      simp

theorem foldl_addPosition (db : Db) (snapshots : List OrderBookSnapshot) (t : ℚ)
    (ps : List PositionRow) (acc : ℚ × ℚ) :
    let sum := ps.foldl (addPosition db (tokenMarks snapshots) t) acc
    sum.1 + sum.2 =
      acc.1 + acc.2 + (ps.map fun p => positionEquity db (markOf snapshots p t) t p).sum := by
  induction ps generalizing acc with
  | nil => simp
  | cons p ps ih =>
    rw [List.foldl_cons]
    simp only [List.map_cons, List.sum_cons, ih]
    unfold addPosition positionEquity markOf
    split_ifs <;> ring

theorem equityPoint_equity (db : Db) (snapshots : List OrderBookSnapshot) (t : ℚ) :
    (equityPoint db (tokenMarks snapshots) t).equity =
      (db.positions.map fun p => positionEquity db (markOf snapshots p t) t p).sum := by
  have h := foldl_addPosition db snapshots t db.positions (0, 0)
  simpa [equityPoint] using h

theorem mem_timeline {marks : String → Marks} {now : ℚ} {positions : List PositionRow} {t : ℚ}
    (h : t = now ∨ ∃ p ∈ positions, t = p.openedAt ∨ t ∈ p.closedAt) :
    t ∈ timeline marks now positions := by
  rw [timeline, (List.perm_insertionSort _ _).mem_iff, List.mem_dedup]
  apply List.mem_append_left
  rcases h with rfl | ⟨p, hp, ht⟩
  · exact List.mem_cons_self
  · refine List.mem_cons_of_mem _ (List.mem_flatMap.mpr ⟨p, hp, ?_⟩)
    simpa using ht

/-- The curve of a ledger with positions ends with its latest point, whose
equity is the total. -/
theorem buildEquityCurve_last {snapshots : List OrderBookSnapshot} {now : ℚ} {db : Db}
    (h : db.positions ≠ []) :
    ∃ t ∈ timeline (tokenMarks snapshots) now db.positions,
      (∀ t' ∈ timeline (tokenMarks snapshots) now db.positions, t' ≤ t) ∧
      (buildEquityCurve snapshots now db).total = (equityPoint db (tokenMarks snapshots) t).equity := by
  have hmem : now ∈ timeline (tokenMarks snapshots) now db.positions := mem_timeline (.inl rfl)
  have hsorted : (timeline (tokenMarks snapshots) now db.positions).Pairwise (· ≤ ·) :=
    List.pairwise_insertionSort _ _
  rw [buildEquityCurve, if_neg h]
  simp only [List.getLast?_map]
  cases hlast : (timeline (tokenMarks snapshots) now db.positions).getLast? with
  | none =>
    rw [List.getLast?_eq_none_iff.mp hlast] at hmem
    cases hmem
  | some t =>
    refine ⟨t, List.mem_of_getLast? hlast, fun t' ht' => ?_, rfl⟩
    obtain ⟨ys, hys⟩ := List.getLast?_eq_some_iff.mp hlast
    rw [hys] at hsorted ht'
    rcases List.mem_append.mp ht' with ht' | ht'
    · exact (List.pairwise_append.mp hsorted).2.2 t' ht' t (List.mem_singleton_self _)
    · rw [List.mem_singleton.mp ht']

/-- From the last open and close on, a position adds its realized PnL if it is
closed and its marked value if it is open. -/
theorem positionEquity_last {db : Db} {p : PositionRow} {b : FillRow} (hb : Projects db p b)
    (hst : Stamped db p) {t : ℚ} (hopened : p.openedAt ≤ t) (hclosed : ∀ c ∈ p.closedAt, c ≤ t)
    (hsold : p.status = .open → db.fillsOf p.id .sell = []) (mark : ℚ) :
    positionEquity db mark t p = p.realizedPnl.getD 0 +
      if p.status = .open then (mark - p.avgEntryPrice - db.feePerShare p.id) * p.qty else 0 := by
  cases hs : p.status with
  | «open» =>
    have hreal : p.realizedPnl.getD 0 = 0 := by rw [hb.realized, hsold hs]; rfl
    have hnot : ¬ p.closedAt.any (· ≤ t) = true := by simp [hst.opened hs]
    rw [positionEquity, if_neg hnot, if_pos hopened, hreal, if_pos rfl, zero_add]
  | closed =>
    obtain ⟨pre, f, -, hc, -⟩ := hst.closed hs
    have hby := (closedBy_iff p t).mpr ⟨f.ts, hc, hclosed _ hc⟩
    rw [positionEquity, if_pos hby, if_neg (by simp), add_zero]

/-- Over every sequence of calls with positive quantities whose sells are
stamped while their position was held: a point of the curve at which no position
held then is sold in parts is worth the cash flows up to it and the marked rest,
where a closed position's buy counts for what its sells disposed of; and the
total, where no open position has been sold from, is the realized PnL of all
positions and the marked value of the open ones. -/
theorem equity_cash_flow {es : List Attempt} {db : Db} (h : LedgerRun Db.empty es db)
    (snapshots : List OrderBookSnapshot) (now : ℚ) :
    (∀ p t, IsMark snapshots p t (markOf snapshots p t)) ∧
    ((∀ p ∈ db.positions, db.InOrder p) →
      ∀ pt ∈ (buildEquityCurve snapshots now db).points, (∀ p ∈ db.positions, db.Unsplit p pt.ts) →
        pt.equity = (db.positions.map fun p =>
          db.cashFlow p.id (db.keptShare p) (markOf snapshots p pt.ts) pt.ts).sum) ∧
    ((∀ p ∈ db.positions, p.status = .open → db.fillsOf p.id .sell = []) →
      ∃ last, now ≤ last ∧ (∀ pt ∈ (buildEquityCurve snapshots now db).points, pt.ts ≤ last) ∧
        (buildEquityCurve snapshots now db).total =
          (db.positions.map fun p => p.realizedPnl.getD 0 + if p.status = .open then
            (markOf snapshots p last - p.avgEntryPrice - db.feePerShare p.id) * p.qty else 0).sum) := by
  have hinv := ledgerInv_run h ledgerInv_empty
  have hstamps := allStamped_run h
  refine ⟨isMark_markOf snapshots, fun hord pt hpt hun => ?_, fun hsold => ?_⟩
  · unfold buildEquityCurve at hpt
    split_ifs at hpt with hempty
    · cases hpt
    · obtain ⟨t, -, rfl⟩ := List.mem_map.mp hpt
      rw [equityPoint_equity]
      congr 1
      apply List.map_congr_left
      intro p hp
      obtain ⟨b, hb⟩ := hinv.projects p hp
      exact positionEquity_eq hb (hstamps p hp) (hord p hp) (hun p hp) _
  · by_cases hempty : db.positions = []
    · refine ⟨now, le_rfl, ?_, ?_⟩ <;> simp [buildEquityCurve, hempty]
    · obtain ⟨last, -, hle, htotal⟩ := buildEquityCurve_last hempty
      refine ⟨last, hle now (mem_timeline (.inl rfl)), fun pt hpt => ?_, ?_⟩
      · rw [buildEquityCurve, if_neg hempty] at hpt
        obtain ⟨t, ht, rfl⟩ := List.mem_map.mp hpt
        exact hle t ht
      · rw [htotal, equityPoint_equity]
        congr 1
        apply List.map_congr_left
        intro p hp
        obtain ⟨b, hb⟩ := hinv.projects p hp
        exact positionEquity_last hb (hstamps p hp) (hle _ (mem_timeline (.inr ⟨p, hp, .inl rfl⟩)))
          (fun c hc => hle c (mem_timeline (.inr ⟨p, hp, .inr hc⟩))) (hsold p hp) _

def sampleSecondOpen : OpenArgs where
  marketId := "m2"
  side := .no
  tokenId := "t2"
  conditionId := "0xc2"
  price := 1 / 2
  qty := 5
  ts := 3

def sampleSnapshot : OrderBookSnapshot where
  tokenId := "t2"
  recordedAt := 4
  bids := [(3 / 5, 20)]

/-- A position sold in two parts and closed, and one still whole. -/
def sampleHistory : List Attempt := sampleCalls ++ [⟨.openPosition sampleSecondOpen, none⟩]

theorem equity_cash_flow_sample :
    let db := sampleHistory.foldl Db.attempt .empty
    (buildEquityCurve [sampleSnapshot] 5 db).points.getLast? = some ⟨5, 11 / 10, 3 / 5, 1 / 2⟩ ∧
    (11 / 10 : ℚ) = (db.positions.map fun p =>
      db.cashFlow p.id (db.keptShare p) (markOf [sampleSnapshot] p 5) 5).sum ∧
    ∃ last, 5 ≤ last ∧ (buildEquityCurve [sampleSnapshot] 5 db).total =
      (db.positions.map fun p => p.realizedPnl.getD 0 + if p.status = .open then
        (markOf [sampleSnapshot] p last - p.avgEntryPrice - db.feePerShare p.id) * p.qty
        else 0).sum := by
  have hpos : ∀ e ∈ sampleHistory, e.call.Positive := by
    simp [sampleHistory, sampleCalls, Call.Positive, sampleOpen, sampleSell, sampleSecondOpen]
  obtain ⟨-, hpoints, htotal⟩ :=
    equity_cash_flow (ledgerRun_of_positive hpos) [sampleSnapshot] 5
  have hlast : (buildEquityCurve [sampleSnapshot] 5
      (sampleHistory.foldl Db.attempt .empty)).points.getLast? = some ⟨5, 11 / 10, 3 / 5, 1 / 2⟩ := by
    decide +kernel
  refine ⟨hlast, ?_, ?_⟩
  · refine hpoints ?_ _ (List.mem_of_getLast? hlast) ?_
    · simp only [Db.InOrder]
      decide +kernel
    · simp only [Db.Unsplit]
      decide +kernel
  · obtain ⟨last, hnow, -, heq⟩ := htotal (by decide +kernel)
    exact ⟨last, hnow, heq⟩

/-- What every fill up to `t` comes to, all of each buy counted. -/
def Db.cashValue (db : Db) (snapshots : List OrderBookSnapshot) (t : ℚ) : ℚ :=
  (db.positions.map fun p => db.cashFlow p.id 1 (markOf snapshots p t) t).sum

def residueCalls : List Attempt :=
  [⟨.openPosition sampleOpen, none⟩, ⟨.recordSell 1 (sampleSell (1999 / 200)), none⟩]

def partSoldCalls : List Attempt :=
  [⟨.openPosition sampleOpen, none⟩, ⟨.recordSell 1 (sampleSell 4), none⟩]

/-- A close stamped before the partial sell it follows. -/
def steppedBackCalls : List Attempt :=
  [⟨.openPosition sampleOpen, none⟩, ⟨.recordSell 1 { sampleSell 4 with ts := 4 }, none⟩,
    ⟨.recordSell 1 (sampleSell 6), none⟩]

/-- A run of these calls, and a point of its curve that is off the cash flows. -/
def MissesCashValue (es : List Attempt) : Prop :=
  LedgerRun Db.empty es (es.foldl Db.attempt .empty) ∧
    ∃ pt ∈ (buildEquityCurve [] 3 (es.foldl Db.attempt .empty)).points,
      pt.equity ≠ (es.foldl Db.attempt .empty).cashValue [] pt.ts

theorem equity_misses_cash_value :
    MissesCashValue residueCalls ∧ MissesCashValue partSoldCalls ∧ MissesCashValue steppedBackCalls := by
  refine ⟨⟨?_, ?_⟩, ⟨?_, ?_⟩, ⟨?_, ?_⟩⟩
  · apply ledgerRun_of_positive
    simp [residueCalls, Call.Positive, sampleOpen, sampleSell]
  · decide +kernel
  · apply ledgerRun_of_positive
    simp [partSoldCalls, Call.Positive, sampleOpen, sampleSell]
  · decide +kernel
  · apply ledgerRun_of_positive
    simp [steppedBackCalls, Call.Positive, sampleOpen, sampleSell]
  · decide +kernel

end OpenPoly
