import OpenPoly.Proofs.Equity
import OpenPoly.Spec.ShadowReport

/-! The returns of the reports: a closed position's gain on what was paid for it, which no
later call changes. -/

namespace OpenPoly

open Transition

def Db.proceeds (db : Db) (positionId : ℕ) : ℚ :=
  ((db.fillsOf positionId .sell).map fun f => f.price * f.qty - f.fee).sum

def Db.soldShare (db : Db) (positionId : ℕ) : ℚ :=
  ((db.fillsOf positionId .sell).map FillRow.qty).sum / ((db.fillsOf positionId .buy).map FillRow.qty).sum

variable {db db' : Db} {p : PositionRow} {b : FillRow}

theorem Projects.buyCostBasis (h : Projects db p b) :
    db.buyCostBasis p.id = some (b.price * b.qty + b.fee) := by
  unfold Db.buyCostBasis
  rw [h.buy]
  simp

theorem Projects.soldShare (h : Projects db p b) :
    db.soldShare p.id = ((db.fillsOf p.id .sell).map FillRow.qty).sum / b.qty := by
  unfold Db.soldShare
  rw [h.buy]
  simp

/-- The gain is what came in, less the cost of the part sold. -/
theorem Projects.gain_on_cost (h : Projects db p b) :
    p.realizedPnl.getD 0 = db.proceeds p.id - db.soldShare p.id * (b.price * b.qty + b.fee) := by
  have hq : b.qty ≠ 0 := h.bought.ne'
  rw [h.realized, booked_sum, h.soldShare, Db.proceeds]
  field_simp

theorem Projects.soldShare_le (h : Projects db p b) : db.soldShare p.id ≤ 1 := by
  rw [h.soldShare]
  exact (div_le_one h.bought).mpr h.sold

/-- No call adds a buy to a position there is. -/
theorem costs_attempt (hinv : LedgerInv db) (e : Attempt) {i : ℕ} (hi : i ∈ db.positions.map PositionRow.id) :
    (db.attempt e).fillsOf i .buy = db.fillsOf i .buy := by
  rcases attempt_cases hinv e with heq | ⟨a, -, -, heq⟩ | ⟨j, pos, row, fill, b, hd, -, -, hsell, -, -⟩
  · rw [heq]
  · rw [heq, Db.opened_fillsOf, if_neg]
    rintro ⟨hfresh, -⟩
    exact nextId_notMem (db.positions.map PositionRow.id) (hfresh ▸ hi)
  · rw [hd.fillsOf, if_neg]
    rintro ⟨-, hbuy⟩
    rw [hsell] at hbuy
    cases hbuy

theorem known_attempt (hinv : LedgerInv db) (e : Attempt) {i : ℕ} (hi : i ∈ db.positions.map PositionRow.id) :
    i ∈ (db.attempt e).positions.map PositionRow.id := by
  rcases attempt_cases hinv e with heq | ⟨a, -, -, heq⟩ | ⟨j, pos, row, fill, b, hd, -, -, -, -, -⟩
  · rw [heq]
    exact hi
  · obtain ⟨q, hq, rfl⟩ := List.mem_map.mp hi
    rw [heq]
    exact List.mem_map_of_mem (List.mem_append_left _ hq)
  · rw [hd.ids]
    exact hi

theorem costs_run {es : List Attempt} (h : LedgerRun db es db') (hinv : LedgerInv db) {i : ℕ}
    (hi : i ∈ db.positions.map PositionRow.id) :
    db'.fillsOf i .buy = db.fillsOf i .buy ∧ i ∈ db'.positions.map PositionRow.id := by
  induction h with
  | nil => exact ⟨rfl, hi⟩
  | snoc hrun hstep ih =>
    obtain ⟨-, rfl⟩ := hstep
    have hinv' := ledgerInv_run hrun hinv
    exact ⟨(costs_attempt hinv' _ ih.2).trans ih.1, known_attempt hinv' _ ih.2⟩

/-- In every run of the ledger the cost of a position is what its buy took, whatever was
sold since; the return of a closed one is what its sells brought in on that cost, less the
part they disposed of; and no later call changes either. -/
theorem returns_on_cost {es : List Attempt} (h : LedgerRun Db.empty es db) (hp : p ∈ db.positions) :
    ∃ b cost, db.fillsOf p.id .buy = [b] ∧ cost = b.price * b.qty + b.fee ∧
      db.buyCostBasis p.id = some cost ∧ p.costBasis db.buyCostBasis = cost ∧
      (∀ conf ret, realReturn db.buyCostBasis p = some (conf, ret) →
        ret = db.proceeds p.id / cost - db.soldShare p.id) ∧
      db.soldShare p.id ≤ 1 ∧
      ∀ es' db', LedgerRun db es' db' → db'.buyCostBasis p.id = db.buyCostBasis p.id ∧
        (p.status = .closed → db'.get p.id = some p ∧
          realReturn db'.buyCostBasis p = realReturn db.buyCostBasis p) := by
  have hinv := ledgerInv_run h ledgerInv_empty
  obtain ⟨b, hb⟩ := hinv.projects p hp
  have hcost := hb.buyCostBasis
  refine ⟨b, _, hb.buy, rfl, hcost, ?_, ?_, hb.soldShare_le, ?_⟩
  · unfold PositionRow.costBasis
    rw [hcost]
    rfl
  · intro conf ret hret
    unfold realReturn at hret
    rw [hcost] at hret
    split at hret
    · next pnl cost hstatus hpnl hc =>
      cases hc
      split_ifs at hret with hzero
      cases hret
      have hgain := hb.gain_on_cost
      rw [hpnl, Option.getD_some] at hgain
      rw [hgain]
      field_simp
    · cases hret
  · intro es' db' hrun
    have hkept : db'.buyCostBasis p.id = db.buyCostBasis p.id := by
      unfold Db.buyCostBasis
      rw [(costs_run hrun hinv (List.mem_map_of_mem hp)).1]
    refine ⟨hkept, fun hclosed => ⟨?_, ?_⟩⟩
    · exact (ledgerInv_run hrun hinv).get_eq (frozen_run hrun hinv hp hclosed).1
    · unfold realReturn
      rw [hkept]

theorem returns_on_cost_sample : ∃ p, (sampleCalls.foldl Db.attempt .empty).get 1 = some p ∧
    (sampleCalls.foldl Db.attempt .empty).buyCostBasis p.id = some (21 / 5) ∧
      realReturn (sampleCalls.foldl Db.attempt .empty).buyCostBasis p = some ("unknown", 1 / 7) ∧
        (1 / 7 : ℚ) = (sampleCalls.foldl Db.attempt .empty).proceeds p.id / (21 / 5) -
          (sampleCalls.foldl Db.attempt .empty).soldShare p.id := by
  have hpositive : ∀ e ∈ sampleCalls, e.call.Positive := by
    intro e he
    simp only [sampleCalls, List.mem_cons, List.not_mem_nil, or_false] at he
    rcases he with rfl | rfl | rfl | rfl | rfl <;> norm_num [Call.Positive, sampleOpen, sampleSell]
  have hrun := @ledgerRun_of_positive Db.empty _ hpositive
  have hfigures : ((sampleCalls.foldl Db.attempt .empty).get 1).map (fun p =>
      ((sampleCalls.foldl Db.attempt .empty).buyCostBasis p.id,
        realReturn (sampleCalls.foldl Db.attempt .empty).buyCostBasis p)) =
      some (some (21 / 5), some ("unknown", 1 / 7)) := by decide +kernel
  obtain ⟨p, hp, heq⟩ := Option.map_eq_some_iff.mp hfigures
  obtain ⟨hcost, hreturn⟩ := Prod.mk.inj heq
  refine ⟨p, hp, hcost, hreturn, ?_⟩
  obtain ⟨b, cost, -, -, hbasis, -, hret, -⟩ := returns_on_cost hrun (Db.get_mem hp).1
  rw [hcost] at hbasis
  cases hbasis
  exact hret _ _ hreturn

end OpenPoly
