import OpenPoly.Lib.Page
import OpenPoly.Lib.Run
import OpenPoly.Proofs.EntryV1
import OpenPoly.Proofs.Ledger
import OpenPoly.Spec.PortfolioGates

/-! The lockout and the cooldown of a market and side, over every history with
one open position per market and side and stamps that never go back: they judge
by the positions among the newest 500. -/

namespace OpenPoly

open Transition

/-- A position of the table with fewer than `limit` newer ones. -/
def Db.Newest (db : Db) (limit : ℕ) (p : PositionRow) : Prop :=
  p ∈ db.positions ∧ db.positions.countP (fun q => p.id < q.id) < limit

theorem newest_iff {db : Db} (h : (db.positions.map PositionRow.id).Nodup) {limit : ℕ}
    {p : PositionRow} : p ∈ db.listPositions limit ↔ db.Newest limit p :=
  Page.mem_newest_iff h

def PositionRow.On (p : PositionRow) (marketId : String) (side : Side) : Prop :=
  p.marketId = marketId ∧ p.side = side

def PositionRow.stamps (p : PositionRow) : List ℚ := p.openedAt :: p.closedAt.toList

def Call.ts : Call → ℚ
  | .openPosition a => a.ts
  | .closePosition _ a => a.ts
  | .recordSell _ a => a.ts

def Forward (db : Db) (e : Attempt) : Prop := ∀ p ∈ db.positions, ∀ t ∈ p.stamps, t ≤ e.call.ts

/-- Positions of one market and side follow one another: each was closed by the
time the next was opened. -/
structure Successive (db : Db) : Prop where
  nodup : (db.positions.map PositionRow.id).Nodup
  span : ∀ p ∈ db.positions, ∀ c ∈ p.closedAt, p.openedAt ≤ c
  older : ∀ p ∈ db.positions, ∀ q ∈ db.positions, p.On q.marketId q.side → p.id < q.id →
    p.status ≠ .open ∧ ∀ t ∈ p.stamps, t ≤ q.openedAt

theorem successive_empty : Successive Db.empty := by
  constructor <;> simp [Db.empty]

theorem Successive.opened {db : Db} (h : Successive db) {a : OpenArgs}
    (hfree : db.hasOpen a.marketId a.side = false)
    (horder : ∀ p ∈ db.positions, ∀ t ∈ p.stamps, t ≤ a.ts)
    (hids : ((db.opened a).positions.map PositionRow.id).Nodup) : Successive (db.opened a) := by
  have hpos : (db.opened a).positions =
      db.positions ++ [openRow (nextId (db.positions.map PositionRow.id)) a] := rfl
  refine ⟨hids, ?_, ?_⟩
  · intro p hp c hc
    rcases List.mem_append.mp (hpos ▸ hp) with hp | hp
    · exact h.span p hp c hc
    · obtain rfl := List.mem_singleton.mp hp
      simp [openRow] at hc
  · intro p hp q hq hon hlt
    rcases List.mem_append.mp (hpos ▸ hq) with hq | hq
    · rcases List.mem_append.mp (hpos ▸ hp) with hp | hp
      · exact h.older p hp q hq hon hlt
      · -- the new row has the largest id
        obtain rfl := List.mem_singleton.mp hp
        exact absurd (nextId_gt (List.mem_map_of_mem hq)) hlt.asymm
    · obtain rfl := List.mem_singleton.mp hq
      rcases List.mem_append.mp (hpos ▸ hp) with hp | hp
      · refine ⟨fun hopen => ?_, horder p hp⟩
        have : db.hasOpen a.marketId a.side = true :=
          (db.hasOpen_iff _ _).mpr ⟨p, hp, hon.1, hon.2, hopen⟩
        simp [hfree] at this
      · obtain rfl := List.mem_singleton.mp hp
        exact absurd hlt (lt_irrefl _)

/-- What a disposal leaves of the row. -/
structure Continues (pos row : PositionRow) (ts : ℚ) : Prop where
  id : row.id = pos.id
  marketId : row.marketId = pos.marketId
  side : row.side = pos.side
  openedAt : row.openedAt = pos.openedAt
  closedAt : row.closedAt = pos.closedAt ∨ row.closedAt = some ts

theorem continues_closedRow (db : Db) (pos : PositionRow) (a : CloseArgs) :
    Continues pos (db.closedRow pos a) a.ts := ⟨rfl, rfl, rfl, rfl, .inr rfl⟩

theorem continues_soldRow (db : Db) (pos : PositionRow) (a : SellArgs) :
    Continues pos (db.soldRow pos a) a.ts := by
  unfold Db.soldRow
  dsimp only
  split_ifs
  · exact ⟨rfl, rfl, rfl, rfl, .inr rfl⟩
  · exact ⟨rfl, rfl, rfl, rfl, .inl rfl⟩

theorem Successive.disposal {db db' : Db} (h : Successive db) {i : ℕ} {pos row : PositionRow}
    {fill : FillRow} {ts : ℚ} (hd : Disposal db i pos row fill db') (hrow : Continues pos row ts)
    (horder : ∀ p ∈ db.positions, ∀ t ∈ p.stamps, t ≤ ts) : Successive db' := by
  have hmem := (Db.get_mem hd.found).1
  have hrows : ∀ p ∈ db'.positions, p = row ∨ p ∈ db.positions := by
    intro p hp
    rw [hd.after] at hp
    exact (Db.mem_setRow hp).imp_right fun hp => hp.1
  refine ⟨by rw [hd.ids]; exact h.nodup, ?_, ?_⟩
  · intro p hp c hc
    rcases hrows p hp with rfl | hp
    · rw [hrow.openedAt]
      rcases hrow.closedAt with hsame | hnew
      · exact h.span pos hmem c (hsame ▸ hc)
      · obtain rfl : ts = c := by simpa [hnew] using hc
        exact horder pos hmem _ List.mem_cons_self
    · exact h.span p hp c hc
  · intro p hp q hq hon hlt
    -- the row disposed of was open, so nothing on its market and side is newer
    have hold : ∀ p ∈ db.positions, p.On q.marketId q.side → p.id < q.id →
        p.status ≠ .open ∧ ∀ t ∈ p.stamps, t ≤ q.openedAt := by
      intro p hp hon hlt
      rcases hrows q hq with rfl | hq
      · rw [hrow.marketId, hrow.side] at hon
        rw [hrow.id] at hlt
        rw [hrow.openedAt]
        exact h.older p hp pos hmem hon hlt
      · exact h.older p hp q hq hon hlt
    rcases hrows p hp with rfl | hp
    · have hon' : pos.On q.marketId q.side := ⟨hrow.marketId ▸ hon.1, hrow.side ▸ hon.2⟩
      exact absurd hd.wasOpen (hold pos hmem hon' (hrow.id ▸ hlt)).1
    · exact hold p hp hon hlt

theorem successive_attempt {db : Db} (h : Successive db) {e : Attempt} (horder : Forward db e) :
    Successive (db.attempt e) := by
  have hids := attempt_ids h.nodup e
  rcases attempt_effect db e with heq | ⟨a, hc, hfree, heq⟩ | ⟨i, a, r, pos, -, hc, -, hd⟩ |
    ⟨i, a, r, pos, -, hc, -, hd⟩
  · rwa [heq]
  · rw [Forward, hc] at horder
    rw [heq] at hids ⊢
    exact h.opened hfree horder hids
  · rw [Forward, hc] at horder
    exact h.disposal hd (continues_closedRow db pos a) horder
  · rw [Forward, hc] at horder
    exact h.disposal hd (continues_soldRow db pos a) horder

theorem successive_run {es : List Attempt} {db : Db}
    (h : Run (guarded Forward ledgerStep) Db.empty es db) : Successive db := by
  refine h.invariant ?_ successive_empty
  rintro db e _ hi ⟨horder, rfl⟩
  exact successive_attempt hi horder

section
variable {db : Db} {marketId : String} {side : Side} {limit : ℕ}

theorem marketSideHasHistory_iff (h : Successive db) :
    marketSideHasHistory (db.listPositions limit) marketId side = true ↔
      ∃ p, db.Newest limit p ∧ p.On marketId side := by
  simp [marketSideHasHistory, newest_iff h.nodup, PositionRow.On]

/-- The stamp a position is judged by is its latest. -/
theorem Successive.stamp_le (h : Successive db) {p : PositionRow} (hp : p ∈ db.positions) {t : ℚ}
    (ht : t ∈ p.stamps) : t ≤ p.closedAt.getD p.openedAt := by
  have hspan := h.span p hp
  unfold PositionRow.stamps at ht
  cases hc : p.closedAt with
  | none =>
    rw [hc] at ht
    exact (List.mem_singleton.mp ht).le
  | some c =>
    rw [hc] at ht
    rcases List.mem_cons.mp ht with rfl | ht
    · exact hspan c hc
    · exact (List.mem_singleton.mp ht).le

theorem stamp_mem (p : PositionRow) : p.closedAt.getD p.openedAt ∈ p.stamps := by
  unfold PositionRow.stamps
  cases p.closedAt <;> simp

theorem inCooldown_iff (h : Successive db) (minutes : ℕ) (now : ℚ) :
    inCooldown (db.listPositions limit) marketId side minutes now = true ↔
      ∃ p, db.Newest limit p ∧ p.On marketId side ∧ ∃ t ∈ p.stamps, now - t < minutes * 60 := by
  unfold inCooldown
  cases hfind : (db.listPositions limit).find? fun p => p.marketId = marketId ∧ p.side = side with
  | none =>
    simp only [Bool.false_eq_true, false_iff]
    rintro ⟨p, hp, hon, -⟩
    have hno := List.find?_eq_none.mp hfind p ((newest_iff h.nodup).mpr hp)
    simp [hon.1, hon.2] at hno
  | some pos =>
    obtain ⟨hmem, hkey, hlargest⟩ := Page.find?_newest h.nodup hfind
    have hpos : db.Newest limit pos := (newest_iff h.nodup).mp hmem
    have hon : pos.On marketId side := by simpa [PositionRow.On] using hkey
    simp only [decide_eq_true_eq]
    constructor
    · intro hlt
      exact ⟨pos, hpos, hon, _, stamp_mem pos, by linarith⟩
    · rintro ⟨p, hp, hpon, t, ht, hlt⟩
      have hle : t ≤ pos.closedAt.getD pos.openedAt := by
        have hid := hlargest p ((newest_iff h.nodup).mpr hp) (by simp [hpon.1, hpon.2])
        rcases hid.eq_or_lt with hid | hid
        · obtain rfl : p = pos := List.inj_on_of_nodup_map h.nodup hp.1 hpos.1 hid
          exact h.stamp_le hp.1 ht
        · have hsame : p.On pos.marketId pos.side := ⟨hpon.1.trans hon.1.symm, hpon.2.trans hon.2.symm⟩
          calc t ≤ pos.openedAt := (h.older p hp.1 pos hpos.1 hsame hid).2 t ht
            _ ≤ _ := h.stamp_le hpos.1 List.mem_cons_self
      linarith

end

/-- No gate before the lockout skips the entry. -/
structure ReachesLockout (config : EdgeThresholdConfig) (extra : Option String) (db : Db)
    (now : ℚ) : Prop where
  heat : 0 < config.heatCapUsd → db.openCost < config.heatCapUsd
  kill : config.killSwitchEnabled = true →
    killSwitchCheck config (db.listPositions gateLimit) now = none
  extra : extra = none

theorem ReachesLockout.gates {config : EdgeThresholdConfig} {extra : Option String} {db : Db}
    {now : ℚ} (h : ReachesLockout config extra db now) (marketId : String) (side : Side)
    (reason : String) :
    portfolioGates config extra db marketId side now = .error reason ↔
      lockoutGate config db marketId side now = some reason := by
  unfold portfolioGates
  rw [if_neg fun hheat => (h.heat hheat.1).not_ge hheat.2]
  have hkill : (if config.killSwitchEnabled then
      killSwitchCheck config (db.listPositions gateLimit) now else none) = none := by
    split_ifs with hon
    · exact h.kill hon
    · rfl
  dsimp only
  rw [hkill, h.extra, Option.none_or, Option.none_or]
  cases lockoutGate config db marketId side now <;> simp

/-- Over every history with stamps that never go back, an entry that reaches the
gate is skipped for the lockout if and only if a position on its market and side
is among the newest 500, and, under a cooldown alone, for the cooldown if and
only if such a position was opened or closed within it. -/
theorem lockout_newest {es : List Attempt} {db : Db}
    (h : Run (guarded Forward ledgerStep) Db.empty es db) {config : EdgeThresholdConfig}
    {extra : Option String} {now : ℚ} (hgate : ReachesLockout config extra db now)
    (marketId : String) (side : Side) :
    (config.sameMarketLifetimeLockout = true →
      (portfolioGates config extra db marketId side now = .error "same_market_lockout" ↔
        ∃ p, db.Newest 500 p ∧ p.On marketId side)) ∧
    (config.sameMarketLifetimeLockout = false → 0 < config.sameMarketCooldownMinutes →
      (portfolioGates config extra db marketId side now = .error "same_market_cooldown" ↔
        ∃ p, db.Newest 500 p ∧ p.On marketId side ∧
          ∃ t ∈ p.stamps, now - t < config.sameMarketCooldownMinutes * 60)) := by
  have hdb := successive_run h
  constructor
  · intro hon
    rw [hgate.gates, ← marketSideHasHistory_iff hdb, lockoutGate, if_pos hon]
    cases hh : marketSideHasHistory (db.listPositions gateLimit) marketId side <;>
      simp [show marketSideHasHistory (db.listPositions 500) marketId side = _ from hh]
  · intro hoff hminutes
    rw [hgate.gates, ← inCooldown_iff hdb, lockoutGate, if_neg (by simp [hoff])]
    cases hc : inCooldown (db.listPositions gateLimit) marketId side config.sameMarketCooldownMinutes
        now <;>
      simp [hminutes, show inCooldown (db.listPositions 500) marketId side
        config.sameMarketCooldownMinutes now = _ from hc]

def EdgeThresholdConfig.withLockout (config : EdgeThresholdConfig) (lockout : Bool) (minutes : ℕ)
    (h : minutes ≤ 1440) : EdgeThresholdConfig :=
  { config with
    sameMarketLifetimeLockout := lockout
    sameMarketCooldownMinutes := minutes
    sameMarketCooldownMinutes_range := h }

theorem noCooldown_range : 0 ≤ 1440 := by decide

theorem hourCooldown_range : 60 ≤ 1440 := by decide

def unlocked : EdgeThresholdConfig := defaultThresholds.toEdgeThresholdConfig.withLockout false 0 noCooldown_range

def lockedOut : EdgeThresholdConfig := unlocked.withLockout true 0 noCooldown_range

def cooling : EdgeThresholdConfig := unlocked.withLockout false 60 hourCooldown_range

/-- A buy on the market named by `n` letters. -/
def buyOn (n : ℕ) : OpenArgs :=
  { sampleOpen with marketId := String.ofList (List.replicate n 'm'), ts := 0 }

theorem buyOn_inj {n m : ℕ} (h : (buyOn n).marketId = (buyOn m).marketId) : n = m := by
  have hlength := congrArg (fun s : String => s.toList.length) h
  simpa [buyOn] using hlength

/-- The first `n` buys, one on each market. -/
def buys (n : ℕ) : List Attempt := (List.range n).map fun i => ⟨.openPosition (buyOn i), none⟩

def boughtRows (n : ℕ) : List PositionRow := (List.range n).map fun i => openRow (i + 1) (buyOn i)

theorem boughtRows_id {n : ℕ} {p : PositionRow} (h : p ∈ boughtRows n) : 1 ≤ p.id ∧ p.id ≤ n := by
  obtain ⟨i, hi, rfl⟩ := List.mem_map.mp h
  have hlt := List.mem_range.mp hi
  exact ⟨by simp [openRow], hlt⟩

theorem nextId_le {ids : List ℕ} {n : ℕ} (h : ∀ i ∈ ids, i ≤ n) : nextId ids ≤ n + 1 := by
  unfold nextId
  induction ids with
  | nil => simp
  | cons i ids ih =>
    have hi := h i List.mem_cons_self
    have hrest := ih fun j hj => h j (List.mem_cons_of_mem _ hj)
    rw [List.foldr_cons]
    omega

theorem nextId_boughtRows (n : ℕ) : nextId ((boughtRows n).map PositionRow.id) = n + 1 := by
  refine le_antisymm (nextId_le fun i hi => ?_) ?_
  · obtain ⟨p, hp, rfl⟩ := List.mem_map.mp hi
    exact (boughtRows_id hp).2
  · cases n with
    | zero => simp [nextId]
    | succ n =>
      refine nextId_gt (List.mem_map.mpr ⟨openRow (n + 1) (buyOn n), ?_, rfl⟩)
      exact List.mem_map.mpr ⟨n, List.self_mem_range_succ, rfl⟩

theorem buys_run (n : ℕ) :
    ∃ db, Run (guarded Forward ledgerStep) Db.empty (buys n) db ∧ db.positions = boughtRows n := by
  induction n with
  | zero => exact ⟨_, .nil, rfl⟩
  | succ n ih =>
    obtain ⟨db, hrun, hrows⟩ := ih
    have hfree : db.hasOpen (buyOn n).marketId (buyOn n).side = false := by
      rw [Bool.eq_false_iff, Ne, db.hasOpen_iff]
      rintro ⟨p, hp, hmarket, -⟩
      obtain ⟨i, hi, rfl⟩ := List.mem_map.mp (hrows ▸ hp)
      exact (List.mem_range.mp hi).ne (buyOn_inj hmarket)
    have horder : Forward db ⟨.openPosition (buyOn n), none⟩ := by
      intro p hp t ht
      obtain ⟨i, -, rfl⟩ := List.mem_map.mp (hrows ▸ hp)
      simp only [openRow, buyOn, PositionRow.stamps, Option.toList_none, List.mem_singleton] at ht
      exact ht.le
    have hopened : db.attempt ⟨.openPosition (buyOn n), none⟩ = db.opened (buyOn n) := by
      simp only [Db.attempt, Db.call, Db.openPosition, hfree, Bool.false_eq_true, if_false,
        Except.map]
      rfl
    refine ⟨db.opened (buyOn n), ?_, ?_⟩
    · rw [buys, List.range_succ, List.map_append]
      exact hrun.snoc ⟨horder, hopened.symm⟩
    · show db.positions ++ [openRow (nextId (db.positions.map PositionRow.id)) (buyOn n)] = _
      rw [hrows, nextId_boughtRows, boughtRows, boughtRows, List.range_succ, List.map_append]
      rfl

/-- A position that all the others are newer than has as many newer ones. -/
theorem oldest_not_newest {db : Db} {p : PositionRow} {rows : List PositionRow}
    (hrows : db.positions = p :: rows) (hnewer : ∀ q ∈ rows, p.id < q.id) : ¬ db.Newest rows.length p := by
  rintro ⟨-, hcount⟩
  rw [hrows, List.countP_cons, List.countP_eq_length.mpr] at hcount
  · omega
  · exact fun q hq => decide_eq_true (hnewer q hq)

/-- The first of `n + 1` positions has `n` newer ones. -/
theorem first_not_newest {db : Db} {n : ℕ} (hrows : db.positions = boughtRows (n + 1))
    {p : PositionRow} (hp : db.Newest n p) (hon : p.On (buyOn 0).marketId .yes) : False := by
  obtain ⟨i, hi, rfl⟩ := List.mem_map.mp (hrows ▸ hp.1)
  obtain rfl : i = 0 := buyOn_inj hon.1
  rw [boughtRows, List.range_succ_eq_map, List.map_cons, List.map_map] at hrows
  refine oldest_not_newest hrows (fun q hq => ?_) ?_
  · obtain ⟨j, -, rfl⟩ := List.mem_map.mp hq
    exact Nat.succ_lt_succ j.succ_pos
  · rw [List.length_map, List.length_range]
    exact hp

theorem reachesLockout_default {config : EdgeThresholdConfig} (hheat : config.heatCapUsd = 0)
    (hkill : config.killSwitchEnabled = false) (db : Db) (now : ℚ) :
    ReachesLockout config none db now :=
  ⟨fun h => absurd hheat h.ne', fun h => absurd (hkill.symm.trans h) (by simp), rfl⟩

instance (db : Db) (e : Attempt) : Decidable (Forward db e) :=
  inferInstanceAs (Decidable (∀ p ∈ db.positions, ∀ t ∈ p.stamps, t ≤ e.call.ts))

def gainSell (qty ts : ℚ) : SellArgs := { sampleSell qty with sellPrice := 3 / 5, ts := ts }

/-- Three positions; the first is sold in two parts, and the second at once in between. -/
def tradedCalls : List Attempt :=
  [⟨.openPosition (buyOn 1), none⟩, ⟨.openPosition { buyOn 2 with ts := 1 }, none⟩,
    ⟨.recordSell 1 (gainSell 4 2), none⟩, ⟨.recordSell 2 (gainSell 10 3), none⟩,
    ⟨.recordSell 1 (gainSell 6 4), none⟩, ⟨.openPosition { buyOn 3 with ts := 5 }, none⟩]

theorem tradedCalls_run :
    ∃ db, Run (guarded Forward ledgerStep) Db.empty tradedCalls db ∧
      db.positions.map (fun p => (p.marketId, p.side, p.closedAt)) =
        [("m", .yes, some 4), ("mm", .yes, some 3), ("mmm", .yes, none)] := by
  have hread : (tradedCalls.foldlM (fun s e => if decide (Forward s e) then some (Db.attempt s e) else none)
      Db.empty).map (fun db => db.positions.map fun p => (p.marketId, p.side, p.closedAt)) =
        some [("m", .yes, some 4), ("mm", .yes, some 3), ("mmm", .yes, none)] := by
    decide +kernel
  obtain ⟨db, hdb, hrows⟩ := Option.map_eq_some_iff.mp hread
  refine ⟨db, (run_checkedM hdb).mono fun s e t hstep => ⟨of_decide_eq_true hstep.1, ?_⟩, hrows⟩
  exact (Option.some.inj hstep.2).symm

/-- An hour after the first position was opened, and less after it was closed, the lockout
skips its market, and so does a cooldown; neither does on a market without a position. -/
theorem lockout_newest_sample :
    ∃ db, Run (guarded Forward ledgerStep) Db.empty tradedCalls db ∧
      portfolioGates lockedOut none db "m" .yes 3602 = .error "same_market_lockout" ∧
      portfolioGates cooling none db "m" .yes 3602 = .error "same_market_cooldown" ∧
      portfolioGates lockedOut none db "mmmm" .yes 3602 ≠ .error "same_market_lockout" := by
  obtain ⟨db, hrun, hrows⟩ := tradedCalls_run
  have hread : ∀ x ∈ db.positions.map (fun p => (p.marketId, p.side, p.closedAt)), x.1 ≠ "mmmm" := by
    rw [hrows]
    decide
  have hfew : db.positions.length < 500 := by
    rw [← List.length_map, hrows]
    decide
  obtain ⟨p, hp, hfirst⟩ := List.mem_map.mp (hrows ▸ List.mem_cons_self)
  simp only [Prod.mk.injEq] at hfirst
  obtain ⟨hmarket, hside, hclosed⟩ := hfirst
  have hnew : db.Newest 500 p := ⟨hp, List.countP_le_length.trans_lt hfew⟩
  have hreach := @reachesLockout_default lockedOut rfl rfl db 3602
  refine ⟨db, hrun, ?_, ?_, ?_⟩
  · exact ((lockout_newest hrun hreach _ _).1 rfl).mpr ⟨p, hnew, hmarket, hside⟩
  · refine ((lockout_newest hrun (reachesLockout_default rfl rfl db 3602) _ _).2 rfl (by decide)).mpr
      ⟨p, hnew, ⟨hmarket, hside⟩, 4, ?_, by norm_num [cooling, EdgeThresholdConfig.withLockout]⟩
    simp [PositionRow.stamps, hclosed]
  · rw [Ne, (lockout_newest hrun hreach _ _).1 rfl]
    rintro ⟨q, hq, hon, -⟩
    exact hread _ (List.mem_map_of_mem hq.1) hon

/-- After 501 buys a position on the first market is not seen: neither the lockout
nor a cooldown skips an entry there. -/
theorem lockout_misses_first :
    ∃ db, Run (guarded Forward ledgerStep) Db.empty (buys 501) db ∧
      (∃ p ∈ db.positions, p.On "" .yes ∧ ∃ t ∈ p.stamps, 0 - t < 60 * 60) ∧
      portfolioGates lockedOut none db "" .yes 0 ≠ .error "same_market_lockout" ∧
      portfolioGates cooling none db "" .yes 0 ≠ .error "same_market_cooldown" := by
  obtain ⟨db, hrun, hrows⟩ := buys_run 501
  have hfirst : openRow 1 (buyOn 0) ∈ db.positions := by
    rw [hrows]
    exact List.mem_map.mpr ⟨0, by simp, rfl⟩
  refine ⟨db, hrun, ⟨_, hfirst, ⟨rfl, rfl⟩, 0, by simp [openRow, buyOn, PositionRow.stamps],
    by norm_num⟩, ?_, ?_⟩
  · have hdb := successive_run hrun
    rw [Ne, (reachesLockout_default rfl rfl db 0).gates, lockoutGate]
    have hnone : marketSideHasHistory (db.listPositions gateLimit) "" .yes = false := by
      rw [Bool.eq_false_iff, Ne, marketSideHasHistory_iff hdb]
      rintro ⟨p, hp, hon⟩
      exact first_not_newest hrows hp hon
    simp [hnone]
  · have hdb := successive_run hrun
    rw [Ne, (reachesLockout_default rfl rfl db 0).gates, lockoutGate]
    have hnone : inCooldown (db.listPositions gateLimit) "" .yes 60 0 = false := by
      rw [Bool.eq_false_iff, Ne, inCooldown_iff hdb]
      rintro ⟨p, hp, hon, -⟩
      exact first_not_newest hrows hp hon
    simp [cooling, EdgeThresholdConfig.withLockout, hnone]

end OpenPoly
