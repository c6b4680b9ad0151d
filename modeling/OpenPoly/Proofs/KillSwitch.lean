import OpenPoly.Lib.StableSort
import OpenPoly.Proofs.Lockout

/-! The kill switch: it trips exactly where one of its enabled brakes holds over
the closes, in close order, of the newest 500 positions. -/

namespace OpenPoly

def ClosedOutcome.Passed (o : ClosedOutcome) : Prop :=
  o.closeReason = some .reconciled ∧ 0 ≤ o.realizedPnl

instance (o : ClosedOutcome) : Decidable o.Passed :=
  inferInstanceAs (Decidable (o.closeReason = some .reconciled ∧ 0 ≤ o.realizedPnl))

/-- The latest `n` closes that are not passed over are losses; newest close first. -/
def LosingRun (n : ℕ) (closes : List ClosedOutcome) : Prop :=
  let counted := closes.filter fun o => ¬ o.Passed
  n ≤ counted.length ∧ ∀ o ∈ counted.take n, o.realizedPnl < 0

/-- The closes of the last 24 hours have lost `limit`. -/
def DailyLoss (limit now : ℚ) (closes : List ClosedOutcome) : Prop :=
  ((closes.filter fun o => now - 86400 ≤ o.closedAt).map ClosedOutcome.realizedPnl).sum ≤ -limit

/-- The total of PnLs, in close order, is `limit` below what it was after some of
them, or below 0 at the start. -/
def Drawdown (limit : ℚ) (pnls : List ℚ) : Prop :=
  ∃ k ≤ pnls.length, limit ≤ (pnls.take k).sum - pnls.sum

/-- An enabled brake holds over the closes, the newest first. -/
def Braked (config : EdgeThresholdConfig) (closes : List ClosedOutcome) (now : ℚ) : Prop :=
  (0 < config.killMaxConsecutiveLosses ∧ LosingRun config.killMaxConsecutiveLosses closes) ∨
  (0 < config.killDailyLossUsd ∧ DailyLoss config.killDailyLossUsd now closes) ∨
  (0 < config.killMaxDrawdownUsd ∧
    Drawdown config.killMaxDrawdownUsd (closes.reverse.map ClosedOutcome.realizedPnl))

theorem le_lossStreak (n : ℕ) (closes : List ClosedOutcome) :
    n ≤ lossStreak closes ↔ LosingRun n closes := by
  unfold LosingRun
  dsimp only
  induction closes generalizing n with
  | nil => simp [lossStreak]
  | cons o closes ih =>
    rw [lossStreak]
    by_cases hloss : o.realizedPnl < 0
    · have hcounted : ¬ o.Passed := fun h => h.2.not_gt hloss
      rw [if_pos hloss, List.filter_cons_of_pos (by simpa using hcounted)]
      cases n with
      | zero => simp
      | succ n => simp [ih, hloss]
    · rw [if_neg hloss]
      by_cases hrec : o.closeReason = some .reconciled
      · have hpassed : o.Passed := ⟨hrec, not_lt.mp hloss⟩
        rw [if_pos hrec, List.filter_cons_of_neg (by simpa using hpassed)]
        exact ih n
      · have hcounted : ¬ o.Passed := fun h => hrec h.1
        rw [if_neg hrec, List.filter_cons_of_pos (by simpa using hcounted)]
        cases n with
        | zero => simp
        | succ n => simp [hloss]

/-- The running peak is the highest of the totals so far. -/
theorem le_drawdownFrom (limit : ℚ) (closes : List ClosedOutcome) {cum peak : ℚ} (h : cum ≤ peak) :
    limit ≤ drawdownFrom closes cum peak ↔
      limit ≤ peak - (cum + (closes.map ClosedOutcome.realizedPnl).sum) ∨
        Drawdown limit (closes.map ClosedOutcome.realizedPnl) := by
  unfold Drawdown
  induction closes generalizing cum peak with
  | nil =>
    simp only [drawdownFrom, List.map_nil, List.sum_nil, add_zero, List.length_nil, List.take_nil,
      sub_zero]
    constructor
    · exact .inl
    · rintro (hle | ⟨-, -, hle⟩)
      · exact hle
      · exact hle.trans (sub_nonneg.mpr h)
  | cons o closes ih =>
    have hpeak : (if peak < cum + o.realizedPnl then cum + o.realizedPnl else peak) =
        max peak (cum + o.realizedPnl) := by
      rw [max_def_lt]
    rw [drawdownFrom, hpeak, ih (le_max_right _ _), List.map_cons, List.sum_cons]
    set rest := closes.map ClosedOutcome.realizedPnl with hrest
    constructor
    · rintro (hle | ⟨k, hk, hle⟩)
      · rcases max_choice peak (cum + o.realizedPnl) with hmax | hmax
        · rw [hmax] at hle
          exact .inl (by linarith)
        · -- the peak is the total right after this close
          rw [hmax] at hle
          refine .inr ⟨1, by simp, ?_⟩
          simp only [List.take_succ_cons, List.take_zero, List.sum_singleton]
          linarith
      · refine .inr ⟨k + 1, by simpa using hk, ?_⟩
        rw [List.take_succ_cons, List.sum_cons]
        linarith
    · have hcum := le_max_left peak (cum + o.realizedPnl)
      rintro (hle | ⟨k, hk, hle⟩)
      · exact .inl (by linarith)
      · cases k with
        | zero =>
          rw [List.take_zero, List.sum_nil] at hle
          exact .inl (by linarith)
        | succ k =>
          rw [List.take_succ_cons, List.sum_cons] at hle
          exact .inr ⟨k, by simpa using hk, by linarith⟩

/-- The check on closes, the newest first, is the brakes. -/
theorem killSwitchCheck_iff (config : EdgeThresholdConfig) (positions : List PositionRow) (now : ℚ) :
    (killSwitchCheck config positions now).isSome = true ↔
      Braked config (closedOutcomes positions) now := by
  have hdraw : Drawdown config.killMaxDrawdownUsd
        ((closedOutcomes positions).reverse.map ClosedOutcome.realizedPnl) ↔
      config.killMaxDrawdownUsd ≤ drawdownFrom (closedOutcomes positions).reverse 0 0 := by
    rw [le_drawdownFrom _ _ le_rfl, or_iff_right_of_imp]
    intro hle
    exact ⟨0, Nat.zero_le _, by simpa using hle⟩
  unfold Braked
  rw [← le_lossStreak, hdraw]
  unfold killSwitchCheck DailyLoss
  dsimp only
  by_cases hempty : (closedOutcomes positions).isEmpty = true
  · have hnil := List.isEmpty_iff.mp hempty
    simp only [hnil, List.isEmpty_nil, if_true, Option.isSome_none, Bool.false_eq_true, lossStreak,
      List.filter_nil, List.map_nil, List.sum_nil, List.reverse_nil, drawdownFrom, sub_zero, false_iff]
    rintro (⟨h0, hle⟩ | ⟨h0, hle⟩ | ⟨h0, hle⟩)
    · omega
    · linarith
    · linarith
  · rw [if_neg hempty]
    unfold dailyPnl
    split_ifs <;> simp_all

def PositionRow.closeOf (p : PositionRow) : ClosedOutcome :=
  ⟨p.closedAt.getD 0, p.realizedPnl.getD 0, p.closeReason⟩

theorem outcome_eq {p : PositionRow} {o : ClosedOutcome} (h : p.outcome = some o) :
    p.closeOf = o := by
  unfold PositionRow.outcome at h
  split at h
  · rename_i hc hr
    cases h
    simp [PositionRow.closeOf, hc, hr]
  · cases h

/-- Closed later, the newer id first on a tie. -/
def ClosedLater (p q : PositionRow) : Prop :=
  q.closeOf.closedAt ≤ p.closeOf.closedAt ∧
    (p.closeOf.closedAt ≤ q.closeOf.closedAt → q.id < p.id)

/-- The closed rows among those `P` holds of, the latest close first. -/
structure CloseOrder (P : PositionRow → Prop) (closes : List PositionRow) : Prop where
  sorted : closes.Pairwise ClosedLater
  mem : ∀ p, p ∈ closes ↔ P p ∧ p.outcome.isSome = true

theorem ClosedLater.asymm {p q : PositionRow} (h : ClosedLater p q) (h' : ClosedLater q p) : p = q :=
  absurd (h.2 h'.1) (h'.2 h.1).asymm

theorem CloseOrder.unique {P : PositionRow → Prop} {closes closes' : List PositionRow}
    (h : CloseOrder P closes) (h' : CloseOrder P closes') : closes = closes' := by
  have hnodup : ∀ {l : List PositionRow}, l.Pairwise ClosedLater → l.Nodup := fun hl =>
    hl.imp fun {p q} hpq heq => by
      subst heq
      exact lt_irrefl _ (hpq.2 le_rfl)
  refine List.Perm.eq_of_pairwise (fun p q _ _ => ClosedLater.asymm) h.sorted h'.sorted ?_
  rw [List.perm_ext_iff_of_nodup (hnodup h.sorted) (hnodup h'.sorted)]
  exact fun p => (h.mem p).trans (h'.mem p).symm

/-- The rows the check reads, in the order it walks them. -/
def pageCloses (page : List PositionRow) : List PositionRow :=
  (page.filter fun p => p.outcome.isSome).insertionSort fun p q =>
    q.closeOf.closedAt ≤ p.closeOf.closedAt

theorem pageCloses_closeOrder {page : List PositionRow} (h : page.Pairwise fun p q => q.id < p.id) :
    CloseOrder (· ∈ page) (pageCloses page) := by
  have : Std.Total fun p q : PositionRow => q.closeOf.closedAt ≤ p.closeOf.closedAt :=
    ⟨fun p q => le_total _ _⟩
  have : IsTrans PositionRow fun p q => q.closeOf.closedAt ≤ p.closeOf.closedAt :=
    ⟨fun p q r h1 h2 => h2.trans h1⟩
  refine ⟨StableSort.pairwise_stable (h.filter _), fun p => ?_⟩
  rw [pageCloses, List.mem_insertionSort, List.mem_filter]

theorem closedOutcomes_eq (page : List PositionRow) :
    closedOutcomes page = (pageCloses page).map PositionRow.closeOf := by
  have hrows : ∀ l : List PositionRow, l.filterMap PositionRow.outcome =
      (l.filter fun p => p.outcome.isSome).map PositionRow.closeOf := by
    intro l
    induction l with
    | nil => rfl
    | cons p l ih =>
      cases ho : p.outcome with
      | none => simpa [ho] using ih
      | some o => simpa [ho, outcome_eq ho] using ih
  unfold closedOutcomes pageCloses
  rw [hrows, List.map_insertionSort (r := fun p q : PositionRow =>
    q.closeOf.closedAt ≤ p.closeOf.closedAt) (s := fun o o' : ClosedOutcome => o'.closedAt ≤ o.closedAt)]
  exact fun _ _ _ _ => Iff.rfl

theorem CloseOrder.congr {P Q : PositionRow → Prop} {closes : List PositionRow} (h : CloseOrder P closes)
    (hPQ : ∀ p, P p ↔ Q p) : CloseOrder Q closes :=
  ⟨h.sorted, fun p => (h.mem p).trans (and_congr_left fun _ => hPQ p)⟩

/-- Among at most 500 positions all are the newest: the kill switch reads the whole history. -/
theorem CloseOrder.whole_history {db : Db} (hfew : db.positions.length ≤ gateLimit) {closes : List PositionRow}
    (h : CloseOrder (· ∈ db.positions) closes) : CloseOrder (db.Newest gateLimit) closes := by
  refine h.congr fun p => (and_iff_left_of_imp fun hp => ?_).symm
  have hself : db.positions.countP (fun q => p.id < q.id) ≠ db.positions.length := by
    rw [Ne, List.countP_eq_length]
    intro hall
    exact absurd (of_decide_eq_true (hall p hp)) (lt_irrefl _)
  exact (lt_of_le_of_ne List.countP_le_length hself).trans_le hfew

def EdgeThresholdConfig.withBrakes (config : EdgeThresholdConfig) (losses : ℕ) (usd : ℚ) (hlosses : losses ≤ 100)
    (husd : 0 ≤ usd ∧ usd ≤ 10000) : EdgeThresholdConfig :=
  { config with
    killMaxConsecutiveLosses := losses
    killMaxConsecutiveLosses_range := hlosses
    killDailyLossUsd := usd
    killDailyLossUsd_range := husd
    killMaxDrawdownUsd := usd
    killMaxDrawdownUsd_range := husd }

theorem oneLoss_range : 1 ≤ 100 := by decide

theorem tenUsd_range : (0 : ℚ) ≤ 10 ∧ (10 : ℚ) ≤ 10000 := by norm_num

/-- Every brake on: one loss, or $10 in a day or off the peak. -/
def allBrakes : EdgeThresholdConfig := unlocked.withBrakes 1 10 oneLoss_range tenUsd_range

/-- A position opened and closed at 0. -/
def closedAtZero (i : ℕ) (pnl : ℚ) : PositionRow :=
  { openRow (i + 1) (buyOn i) with
    status := .closed
    closedAt := some 0
    closeReason := some .reconciled
    realizedPnl := some pnl }

/-- A loss of $10 on the first position and then `n` reconciled ones at 0. -/
def lossFirst (n : ℕ) : List PositionRow :=
  closedAtZero 0 (-10) :: (List.range n).map fun i => closedAtZero (i + 1) 0

theorem lossFirst_nodup (n : ℕ) : ((lossFirst n).map PositionRow.id).Nodup := by
  have hids : (lossFirst n).map PositionRow.id = (List.range (n + 1)).map (· + 1) := by
    rw [lossFirst, List.range_succ_eq_map, List.map_cons, List.map_cons, List.map_map, List.map_map]
    rfl
  rw [hids]
  exact List.nodup_range.map fun i j h => Nat.succ.inj h

theorem lossFirst_order (n : ℕ) : CloseOrder (· ∈ lossFirst n) (lossFirst n).reverse := by
  refine ⟨?_, fun p => ?_⟩
  · rw [List.pairwise_reverse, lossFirst, List.pairwise_cons, List.pairwise_map]
    refine ⟨fun p hp => ?_, List.pairwise_lt_range.imp fun {i j} hij => ⟨le_rfl, fun _ => ?_⟩⟩
    · obtain ⟨i, -, rfl⟩ := List.mem_map.mp hp
      exact ⟨le_rfl, fun _ => Nat.succ_lt_succ i.succ_pos⟩
    · exact Nat.succ_lt_succ (Nat.succ_lt_succ hij)
  · rw [List.mem_reverse]
    refine (and_iff_left_of_imp fun hp => ?_).symm
    rcases List.mem_cons.mp hp with rfl | hp
    · rfl
    · obtain ⟨i, -, rfl⟩ := List.mem_map.mp hp
      rfl

theorem lossFirst_closes (n : ℕ) :
    (lossFirst n).map PositionRow.closeOf =
      ⟨0, -10, some .reconciled⟩ :: List.replicate n ⟨0, 0, some .reconciled⟩ := by
  rw [lossFirst, List.map_cons, List.map_map]
  refine congrArg₂ List.cons rfl (List.eq_replicate_iff.mpr ⟨by simp, fun o ho => ?_⟩)
  obtain ⟨i, -, rfl⟩ := List.mem_map.mp ho
  rfl

/-- Every brake holds over the loss and all that came after it. -/
theorem lossFirst_brakes (n : ℕ) :
    LosingRun 1 ((lossFirst n).reverse.map PositionRow.closeOf) ∧
      DailyLoss 10 0 ((lossFirst n).reverse.map PositionRow.closeOf) ∧
      Drawdown 10 (((lossFirst n).reverse.map PositionRow.closeOf).reverse.map
        ClosedOutcome.realizedPnl) := by
  have hpassed : ClosedOutcome.Passed ⟨0, 0, some .reconciled⟩ := ⟨rfl, le_rfl⟩
  have hcounted : ¬ ClosedOutcome.Passed ⟨0, -10, some .reconciled⟩ := fun h => by
    have := h.2
    norm_num at this
  rw [List.map_reverse, List.reverse_reverse, lossFirst_closes]
  refine ⟨?_, ?_, 0, Nat.zero_le _, ?_⟩
  · unfold LosingRun
    simp [hpassed, hcounted]
  · unfold DailyLoss
    rw [List.filter_eq_self.mpr, List.map_reverse, List.sum_reverse]
    · simp
    · intro o ho
      rcases List.mem_cons.mp (List.mem_reverse.mp ho) with rfl | ho
      · norm_num
      · obtain rfl := List.eq_of_mem_replicate ho
        norm_num
  · simp

theorem not_braked_of_zero {config : EdgeThresholdConfig} {closes : List ClosedOutcome} {now : ℚ}
    (h : ∀ o ∈ closes, o.realizedPnl = 0) : ¬ Braked config closes now := by
  have hsum : ∀ {l : List ℚ}, (∀ x ∈ l, x = 0) → l.sum = 0 := fun hl => List.sum_eq_zero hl
  rintro (⟨h0, hrun⟩ | ⟨h0, hday⟩ | ⟨h0, k, -, hdraw⟩)
  · obtain ⟨hlen, hlosses⟩ := hrun
    obtain ⟨o, ho⟩ := List.exists_mem_of_length_pos
      (show 0 < ((closes.filter fun o => ¬ o.Passed).take config.killMaxConsecutiveLosses).length by
        rw [List.length_take]; omega)
    have hmem : o ∈ closes := List.mem_of_mem_filter (List.mem_of_mem_take ho)
    exact absurd (h o hmem) (hlosses o ho).ne
  · unfold DailyLoss at hday
    rw [hsum] at hday
    · linarith
    · intro x hx
      obtain ⟨o, ho, rfl⟩ := List.mem_map.mp hx
      exact h o (List.mem_of_mem_filter ho)
  · have hzero : ∀ x ∈ closes.reverse.map ClosedOutcome.realizedPnl, x = 0 := by
      intro x hx
      obtain ⟨o, ho, rfl⟩ := List.mem_map.mp hx
      exact h o (List.mem_reverse.mp ho)
    rw [hsum hzero, hsum fun x hx => hzero x (List.mem_of_mem_take hx)] at hdraw
    linarith

/-- Two positions closed at a gain and at a loss, and a third at a loss after a part of it
was sold at a gain; a fourth is open. -/
def losingCalls : List Attempt :=
  [⟨.openPosition (buyOn 1), none⟩, ⟨.openPosition (buyOn 2), none⟩, ⟨.openPosition (buyOn 3), none⟩,
    ⟨.recordSell 1 (gainSell 4 2), none⟩, ⟨.recordSell 2 { gainSell 10 3 with sellPrice := 1 / 5 }, none⟩,
    ⟨.recordSell 3 (gainSell 4 4), none⟩, ⟨.recordSell 1 (gainSell 6 5), none⟩,
    ⟨.recordSell 3 { gainSell 6 6 with sellPrice := 1 / 5 }, none⟩,
    ⟨.openPosition { buyOn 4 with ts := 7 }, none⟩]

def losingDb : Db := losingCalls.foldl Db.attempt .empty

end OpenPoly
