import OpenPoly.Proofs.Evidence

/-! The settle step against what the venue's answers amount to: the cancel loop
sees exactly the visited rounds, an order is left resting exactly when it is not
known off the book, and the quantity is the one the sources establish. -/

namespace OpenPoly

open Largest

/-- The loop over a list of rounds, said of the rounds it visits. -/
theorem cancelRounds_eq (orderId : String) (size : ℚ) (rounds : List Round) (reason : Json)
    (ev : FillEvidence) (hsize : ev.size = size) :
    cancelRounds orderId rounds reason ev =
      (if (visited orderId size rounds).any (Round.acks orderId) ||
          (readings orderId (visited orderId size rounds)).any (Reading.terminal size) then none
        else some ((visited orderId size rounds).foldl
          (fun _ r => refusalReason orderId r.cancel) reason),
        (readings orderId (visited orderId size rounds)).any (Reading.terminal size),
        ev.readAll (readings orderId (visited orderId size rounds))) := by
  induction rounds generalizing reason ev with
  | nil => simp [cancelRounds, visited, readings]
  | cons r rest ih =>
    unfold cancelRounds
    by_cases hack : r.acks orderId = true
    · have hc : cancelAcked orderId r.cancel = true := hack
      simp [hc, visited, Round.ends, hack, readings]
    · have hc : cancelAcked orderId r.cancel = false := by simpa [Round.acks] using hack
      have hack' : r.acks orderId = false := hc
      rw [if_neg (by simp [hc])]
      cases hr : readOrder r.read with
      | none =>
        have hread : r.reading = none := hr
        cases hlate : r.late with
        | true => simp [visited, Round.ends, hack', hread, hlate, readings]
        | false =>
          simp only [ih _ _ hsize, Bool.false_eq_true, if_false]
          simp [visited, Round.ends, hack', hread, hlate, readings]
      | some x =>
        have hread : r.reading = some x := hr
        have hterm : (ev.addRead x.1 x.2).1 = Reading.terminal size x := hsize ▸ ev.addRead_fst x
        have hsize' : (ev.addRead x.1 x.2).2.size = size := by
          rw [FillEvidence.addRead_size, hsize]
        simp only [hterm]
        cases ht : Reading.terminal size x with
        | true => simp [visited, Round.ends, hack', hread, ht, readings]
        | false =>
          cases hlate : r.late with
          | true => simp [visited, Round.ends, hack', hread, hlate, ht, readings]
          | false =>
            simp only [ih _ _ hsize', Bool.false_eq_true, if_false]
            simp [visited, Round.ends, hack', hread, hlate, ht, readings]

theorem cancelWithRetry_eq (orderId : String) (size : ℚ) (a : SettleAnswers) (ev : FillEvidence)
    (hsize : ev.size = size) :
    cancelWithRetry orderId a.rounds ev =
      (if (a.seen orderId size).any (Round.acks orderId) ||
          (readings orderId (a.seen orderId size)).any (Reading.terminal size) then none
        else some (a.refusal orderId size),
        (readings orderId (a.seen orderId size)).any (Reading.terminal size),
        ev.readAll (readings orderId (a.seen orderId size))) :=
  cancelRounds_eq orderId size _ _ ev hsize

def SettleAnswers.refusalLeft (a : SettleAnswers) (orderId : String) (size : ℚ) : Option Json :=
  if a.offBook orderId size then none else some (a.refusal orderId size)

theorem settleOrder_eq (orderId : String) (size : ℚ) (a : SettleAnswers) (ev : FillEvidence)
    (hsize : ev.size = size) :
    settleOrder orderId a ev =
      (a.refusalLeft orderId size, ev.readAll (a.reads orderId size),
        (a.refusalLeft orderId size).all Json.blank &&
          (a.finalReading orderId size).any fun r => r.1 = some 0) := by
  unfold settleOrder
  rw [cancelWithRetry_eq orderId size a ev hsize]
  cases ht : (readings orderId (a.seen orderId size)).any (Reading.terminal size) with
  | true =>
    have hfinal : a.finalReading orderId size = none := by
      simp [SettleAnswers.finalReading, ht]
    have hoff : a.offBook orderId size = true := by
      simp only [SettleAnswers.offBook, SettleAnswers.reads, hfinal, Option.toList_none,
        List.append_nil, ht, Bool.or_true]
    simp [SettleAnswers.refusalLeft, hoff, hfinal, SettleAnswers.reads]
  | false =>
    have hfinal : a.finalReading orderId size = readOrder a.final := by
      simp [SettleAnswers.finalReading, ht]
    cases hr : readOrder a.final with
    | none =>
      have hoff : a.offBook orderId size = (a.seen orderId size).any (Round.acks orderId) := by
        simp only [SettleAnswers.offBook, SettleAnswers.reads, hfinal, hr, Option.toList_none,
          List.append_nil, ht, Bool.or_false]
      simp [SettleAnswers.refusalLeft, hoff, hfinal, hr, SettleAnswers.reads]
    | some x =>
      have hoff : a.offBook orderId size =
          ((a.seen orderId size).any (Round.acks orderId) || Reading.terminal size x) := by
        simp only [SettleAnswers.offBook, SettleAnswers.reads, hfinal, hr, Option.toList_some,
          List.any_append, ht, Bool.false_or, List.any_cons, List.any_nil, Bool.or_false]
      have hterm : ((ev.readAll (readings orderId (a.seen orderId size))).addRead x.1 x.2).1 =
          Reading.terminal size x := by
        rw [FillEvidence.addRead_fst, FillEvidence.readAll_size, hsize]
      have hreads : a.reads orderId size = readings orderId (a.seen orderId size) ++ [x] := by
        simp [SettleAnswers.reads, hfinal, hr]
      have hleft : (if Reading.terminal size x = true then none
          else if (a.seen orderId size).any (Round.acks orderId) = true then none
            else some (a.refusal orderId size)) = a.refusalLeft orderId size := by
        rw [SettleAnswers.refusalLeft, hoff]
        cases Reading.terminal size x <;> simp
      simp only [Bool.or_false, Bool.false_eq_true, if_false, hterm, hleft, hreads,
        FillEvidence.readAll_append, FillEvidence.readAll_cons, FillEvidence.readAll_nil, hfinal,
        hr, Option.any_some]

theorem covers_iff {body : OrderResponse} {size : ℚ} :
    body.covers size = true ↔ size - fillTol ≤ body.reported size := by
  simp [OrderResponse.covers]

theorem reported_bounds (body : OrderResponse) {size : ℚ} (h : 0 ≤ size) :
    0 ≤ body.reported size ∧ body.reported size ≤ size + fillTol := by
  unfold OrderResponse.reported
  cases hp : plausibleQty body.shares size with
  | none => exact ⟨le_rfl, by simpa using add_nonneg h fillTol_pos.le⟩
  | some q => exact (plausibleQty_eq_some.mp hp).2

def bodyEvidence (body : OrderResponse) (size : ℚ) (a : SettleAnswers) : FillEvidence :=
  ((({ size := size } : FillEvidence).add (some (body.reported size)) .postBody false false
    body.txHash.isSome)).readAll (readsOf body size a)

/-- The zero `_settle_resting_remainder` holds back. -/
def heldZero (body : OrderResponse) (size : ℚ) (a : SettleAnswers) : Bool :=
  (knownOff body size a || lastRefusalBlank body size a) && finalZero body size a

theorem settleAnswered_covers {resp : Dict} {side : FillAction} {size : ℚ} (a : SettleAnswers)
    (h : (postBody resp side).covers size = true) :
    settleAnswered resp side size a = (some ((postBody resp side).reported size), false) := by
  simp only [settleAnswered, settleRestingRemainder, if_pos ((covers_iff).mp h)]

theorem bodyEvidence_start (body : OrderResponse) (size : ℚ) :
    (({ size := size } : FillEvidence).add (some (body.reported size)) .postBody false false
      body.txHash.isSome) =
      ({ size := size } : FillEvidence).bounded
        ((plausibleQty (some (body.reported size)) size).filter fun q => 0 < q) .postBody
        body.txHash.isSome :=
  FillEvidence.add_bound _ _ _ _

theorem bodyEvidence_start_size (body : OrderResponse) (size : ℚ) :
    (({ size := size } : FillEvidence).add (some (body.reported size)) .postBody false false
      body.txHash.isSome).size = size := by
  rw [bodyEvidence_start]
  rfl

theorem settleAnswered_short {resp : Dict} {side : FillAction} {size : ℚ} (a : SettleAnswers)
    (h : (postBody resp side).covers size = false) :
    settleAnswered resp side size a =
      (settledQty (bodyEvidence (postBody resp side) size a) (heldZero (postBody resp side) size a)
        a.confirm, !knownOff (postBody resp side) size a) := by
  set body := postBody resp side with hbody
  have hshort : ¬ size - fillTol ≤ body.reported size := by
    rw [← covers_iff, h]
    exact Bool.false_ne_true
  simp only [settleAnswered, settleRestingRemainder, ← hbody, if_neg hshort]
  unfold bodyEvidence heldZero knownOff lastRefusalBlank finalZero readsOf
  cases hid : body.orderId with
  | none => simp
  | some orderId =>
    simp only [settleOrder_eq orderId size a _ (bodyEvidence_start_size body size),
      Option.any_some]
    cases hoff : a.offBook orderId size with
    | true => simp [SettleAnswers.refusalLeft, hoff]
    | false => simp [SettleAnswers.refusalLeft, hoff]

theorem bodyEvidence_size (body : OrderResponse) (size : ℚ) (a : SettleAnswers) :
    (bodyEvidence body size a).size = size := by
  rw [bodyEvidence, FillEvidence.readAll_size, bodyEvidence_start_size]

theorem bodyEvidence_exact (body : OrderResponse) (size : ℚ) (a : SettleAnswers) :
    (bodyEvidence body size a).exact =
      (finalCounts size (readsOf body size a)).getLast?.map fun q => ⟨q, .orderRead, false⟩ := by
  rw [bodyEvidence, FillEvidence.readAll_exact, bodyEvidence_start_size, bodyEvidence_start]
  simp [FillEvidence.bounded]

theorem bodyEvidence_bounds (body : OrderResponse) {size : ℚ} (h : 0 ≤ size) (a : SettleAnswers) :
    (bodyEvidence body size a).bounds =
      (body.cross size).map (fun q => ⟨q, .postBody, body.txHash.isSome⟩) ++
        (readBounds size (readsOf body size a)).map fun q => ⟨q, .orderRead, false⟩ := by
  have hrep : plausibleQty (some (body.reported size)) size = some (body.reported size) :=
    plausibleQty_eq_some.mpr ⟨rfl, reported_bounds body h⟩
  rw [bodyEvidence, FillEvidence.readAll_bounds, bodyEvidence_start_size, bodyEvidence_start, hrep]
  by_cases hq : 0 < body.reported size
  · simp [FillEvidence.bounded, OrderResponse.cross, hq, Option.filter]
  · simp [FillEvidence.bounded, OrderResponse.cross, hq, Option.filter]

theorem bodyEvidence_outlasting (body : OrderResponse) {size : ℚ} (h : 0 ≤ size)
    (a : SettleAnswers) :
    (bodyEvidence body size a).outlasting .orderRead = lastingBounds body size a := by
  rw [FillEvidence.outlasting, bodyEvidence_bounds body h, List.filter_append, List.map_append,
    lastingBounds]
  congr 1
  · unfold OrderResponse.cross
    by_cases hq : 0 < body.reported size
    · cases body.txHash with
      | none => simp [hq]
      | some tx => simp [hq]
    · simp [hq]
  · induction readBounds size (readsOf body size a) with
    | nil => rfl
    | cons q qs ih => simpa using ih

theorem bodyEvidence_qtys (body : OrderResponse) {size : ℚ} (h : 0 ≤ size) (a : SettleAnswers) :
    (bodyEvidence body size a).bounds.map Evidence.qty = lowerBounds body size a := by
  rw [bodyEvidence_bounds body h, List.map_append, List.map_map, List.map_map, lowerBounds]
  congr 1
  · exact List.map_id _
  · exact List.map_id _

theorem settledQty_of_resolve {ev : FillEvidence} {q : ℚ} (h : ev.resolve = some q) (z : Bool)
    (confirm : Except PyErr PyFloat) : settledQty ev z confirm = some q := by
  rw [settledQty, h]

theorem walletDelta_bounds {confirm : Except PyErr PyFloat} {size moved : ℚ} (h : 0 ≤ size)
    (hm : walletDelta confirm size = .ok (some moved)) : 0 ≤ moved ∧ moved ≤ size := by
  unfold walletDelta at hm
  split at hm
  · cases hm
  · next q =>
    by_cases hq : q < 0
    · simp [hq] at hm
    · have heq : min q size = moved := by simpa [hq] using hm
      exact ⟨heq ▸ le_min (not_lt.mp hq) h, heq ▸ min_le_right _ _⟩
  · cases hm

theorem walletMoved_bounds {a : SettleAnswers} {size moved : ℚ} (h : 0 ≤ size)
    (hm : walletMoved a size = some moved) : 0 < moved ∧ moved ≤ size := by
  unfold walletMoved at hm
  cases hw : walletDelta a.confirm size with
  | error e => simp [hw] at hm
  | ok m =>
    rw [hw] at hm
    obtain ⟨rfl, hpos⟩ := Option.filter_eq_some_iff.mp hm
    exact ⟨by simpa using hpos, (walletDelta_bounds h hw).2⟩

/-- With no evidence at all, the wallet answers, and then the held zero. -/
theorem settledQty_nothing {ev : FillEvidence} (a : SettleAnswers) (h : 0 ≤ ev.size)
    (hexact : ev.exact = none) (hbounds : ev.bounds = []) (z : Bool) :
    settledQty ev z a.confirm =
      match walletMoved a ev.size with
      | some moved => some moved
      | none => if z then some 0 else none := by
  have hnone : ev.resolve = none := by simp [FillEvidence.resolve, hexact, hbounds]
  have hadd : ∀ m : Option ℚ, (ev.add m .wallet).resolve =
      (plausibleQty m ev.size).filter fun q => 0 < q := by
    intro m
    rw [FillEvidence.add_bound]
    unfold FillEvidence.resolve FillEvidence.bounded
    rw [hexact, hbounds]
    cases (plausibleQty m ev.size).filter fun q => 0 < q with
    | none => simp
    | some q => simp
  unfold settledQty walletMoved
  rw [hnone]
  cases hw : walletDelta a.confirm ev.size with
  | error e => simp [hadd, plausibleQty]
  | ok m =>
    have hplaus : plausibleQty m ev.size = m := by
      cases m with
      | none => rfl
      | some q => exact plausibleQty_of_le (walletDelta_bounds h hw).1 (walletDelta_bounds h hw).2
    cases hmoved : m.filter fun q => decide (0 < q) with
    | none => simp [hadd, hplaus, hmoved]
    | some moved => simp [hadd, hplaus, hmoved]

/-- A count comes of a terminal reading, which takes the order off the book. -/
theorem knownOff_of_count {body : OrderResponse} {size : ℚ} {a : SettleAnswers} {count : ℚ}
    (h : (finalCounts size (readsOf body size a)).getLast? = some count) :
    knownOff body size a = true := by
  have hmem := List.mem_of_getLast? h
  obtain ⟨r, hr, -⟩ := List.mem_filterMap.mp hmem
  obtain ⟨hr, hterm⟩ := List.mem_filter.mp hr
  unfold readsOf at hr
  unfold knownOff
  cases hid : body.orderId with
  | none => simp [hid] at hr
  | some orderId =>
    rw [hid] at hr
    have hany : (a.reads orderId size).any (Reading.terminal size) = true :=
      List.any_eq_true.mpr ⟨r, hr, hterm⟩
    simp [SettleAnswers.offBook, hany]

/-- The sources' precedence holds of the settled quantity except after a blank
refusal. -/
theorem concluded_settledQty (body : OrderResponse) {size : ℚ} (a : SettleAnswers) (h : 0 ≤ size)
    (hshort : body.covers size = false) :
    Concluded body size a
        (settledQty (bodyEvidence body size a) (heldZero body size a) a.confirm) ↔
      blankRefusal body size a = false := by
  have hexact := bodyEvidence_exact body size a
  have hqtys := bodyEvidence_qtys body h a
  unfold Concluded
  rw [if_neg (by simp [hshort])]
  cases hcount : (finalCounts size (readsOf body size a)).getLast? with
  | some count =>
    have hoff := knownOff_of_count hcount
    rw [hcount] at hexact
    obtain ⟨q, hq, hlargest⟩ := (bodyEvidence body size a).resolve_exact hexact
    rw [bodyEvidence_outlasting body h] at hlargest
    simp only [settledQty_of_resolve hq, blankRefusal, hoff, Bool.not_true, Bool.and_false,
      Bool.false_and, iff_true]
    exact ⟨q, rfl, hlargest⟩
  | none =>
    rw [hcount] at hexact
    have hres := (bodyEvidence body size a).resolve_bounds hexact
    rw [hqtys] at hres
    by_cases hb : lowerBounds body size a = []
    · have hbounds : (bodyEvidence body size a).bounds = [] := List.map_eq_nil_iff.mp (hqtys.trans hb)
      have hnothing := settledQty_nothing a ((bodyEvidence_size body size a).symm ▸ h) hexact hbounds
        (heldZero body size a)
      rw [bodyEvidence_size] at hnothing
      simp only [hb, ne_eq, not_true_eq_false, if_false, hnothing]
      cases hw : walletMoved a size with
      | some moved => simp [blankRefusal, hw]
      | none =>
        by_cases hk : knownOff body size a = true
        · simp [blankRefusal, heldZero, hk]
        · by_cases hz : finalZero body size a = true
          · simp [blankRefusal, heldZero, hshort, hk, hz, hb, hw]
          · simp [blankRefusal, heldZero, hz]
    · obtain ⟨q, hq⟩ : ∃ q, (lowerBounds body size a).max? = some q :=
        Option.isSome_iff_exists.mp (List.isSome_max?_iff.mpr hb)
      have hblank : blankRefusal body size a = false := by
        simp [blankRefusal, List.isEmpty_iff, hb]
      simp only [ne_eq, hb, not_false_eq_true, if_true, settledQty_of_resolve (hres.trans hq), hblank,
        iff_true]
      exact ⟨q, rfl, isLargest_max? hq⟩

theorem concluded_settleAnswered {resp : Dict} {side : FillAction} {size : ℚ} (a : SettleAnswers)
    (h0 : 0 ≤ size) :
    Concluded (postBody resp side) size a (settleAnswered resp side size a).1 ↔
      blankRefusal (postBody resp side) size a = false := by
  cases hcov : (postBody resp side).covers size with
  | true =>
    rw [settleAnswered_covers a hcov]
    simp [Concluded, hcov, blankRefusal]
  | false =>
    rw [settleAnswered_short a hcov]
    exact concluded_settledQty _ a h0 hcov

theorem lastingBounds_sub (body : OrderResponse) (size : ℚ) (a : SettleAnswers) {q : ℚ}
    (hq : q ∈ lastingBounds body size a) : q ∈ lowerBounds body size a := by
  rcases List.mem_append.mp hq with hq | hq
  · split_ifs at hq
    · exact List.mem_append_left _ hq
    · simp at hq
  · exact List.mem_append_right _ hq

/-- Whatever follows the precedence is a quantity some source gave, or nothing. -/
theorem Concluded.all {P : ℚ → Prop} {body : OrderResponse} {size q : ℚ} {a : SettleAnswers}
    (hbody : P (body.reported size)) (hreads : ∀ r ∈ readsOf body size a, ∀ m,
      Reading.count size r = some m → P m)
    (hwallet : ∀ m, walletMoved a size = some m → P m) (h0 : P 0)
    (hc : Concluded body size a (some q)) : P q := by
  have hfinal : ∀ m ∈ finalCounts size (readsOf body size a), P m := by
    intro m hm
    obtain ⟨r, hr, hq⟩ := List.mem_filterMap.mp hm
    exact hreads r (List.mem_of_mem_filter hr) m hq
  have hlower : ∀ m ∈ lowerBounds body size a, P m := by
    intro m hm
    rcases List.mem_append.mp hm with hm | hm
    · unfold OrderResponse.cross at hm
      split_ifs at hm
      · rwa [List.mem_singleton.mp hm]
      · simp at hm
    · obtain ⟨r, hr, hq⟩ := List.mem_filterMap.mp hm
      exact hreads r (List.mem_of_mem_filter hr) m (Option.filter_eq_some_iff.mp hq).1
  unfold Concluded at hc
  by_cases hcov : body.covers size = true
  · rw [if_pos hcov] at hc
    obtain rfl := Option.some.inj hc
    exact hbody
  · rw [if_neg hcov] at hc
    cases hcount : (finalCounts size (readsOf body size a)).getLast? with
    | some count =>
      rw [hcount] at hc
      obtain ⟨p, hp, hmem, -⟩ := hc
      obtain rfl := Option.some.inj hp
      rcases List.mem_cons.mp hmem with rfl | hmem
      · exact hfinal _ (List.mem_of_getLast? hcount)
      · exact hlower _ (lastingBounds_sub body size a hmem)
    | none =>
      rw [hcount] at hc
      by_cases hb : lowerBounds body size a = []
      · simp only [hb, ne_eq, not_true_eq_false, if_false] at hc
        cases hw : walletMoved a size with
        | some moved =>
          rw [hw] at hc
          obtain rfl := Option.some.inj hc
          exact hwallet _ hw
        | none =>
          simp only [hw] at hc
          split_ifs at hc
          obtain rfl := Option.some.inj hc
          exact h0
      · simp only [ne_eq, hb, not_false_eq_true, if_true] at hc
        obtain ⟨p, hp, hmem, -⟩ := hc
        obtain rfl := Option.some.inj hp
        exact hlower _ hmem

/-- After a blank refusal the settle reports that nothing filled. -/
theorem settleAnswered_blank {resp : Dict} {side : FillAction} {size : ℚ} {a : SettleAnswers}
    (h0 : 0 ≤ size) (hb : blankRefusal (postBody resp side) size a = true) :
    (settleAnswered resp side size a).1 = some 0 := by
  set body := postBody resp side with hbody
  simp only [blankRefusal, Bool.and_eq_true, Bool.not_eq_true', List.isEmpty_iff,
    Option.isNone_iff_eq_none] at hb
  obtain ⟨⟨⟨⟨⟨hcov, hoff⟩, hblank⟩, hzero⟩, hnil⟩, hwallet⟩ := hb
  have hcount : (finalCounts size (readsOf body size a)).getLast? = none := by
    cases hc : (finalCounts size (readsOf body size a)).getLast? with
    | none => rfl
    | some count =>
      rw [knownOff_of_count hc] at hoff
      cases hoff
  have hexact := bodyEvidence_exact body size a
  rw [hcount] at hexact
  have hbounds : (bodyEvidence body size a).bounds = [] :=
    List.map_eq_nil_iff.mp ((bodyEvidence_qtys body h0 a).trans hnil)
  have hnothing := settledQty_nothing a ((bodyEvidence_size body size a).symm ▸ h0) hexact hbounds
    (heldZero body size a)
  rw [settleAnswered_short a hcov, hnothing, bodyEvidence_size, hwallet]
  simp [heldZero, hblank, hzero]

/-- The quantity a settle reports is one its sources gave, or nothing. -/
theorem settleAnswered_all {P : ℚ → Prop} {resp : Dict} {side : FillAction} {size q : ℚ}
    {a : SettleAnswers} (hsize : 0 ≤ size) (hbody : P ((postBody resp side).reported size))
    (hreads : ∀ r ∈ readsOf (postBody resp side) size a, ∀ m, Reading.count size r = some m → P m)
    (hwallet : ∀ m, walletMoved a size = some m → P m) (h0 : P 0)
    (hq : (settleAnswered resp side size a).1 = some q) : P q := by
  cases hb : blankRefusal (postBody resp side) size a with
  | false =>
    have hc := (concluded_settleAnswered a hsize).mpr hb
    rw [hq] at hc
    exact hc.all hbody hreads hwallet h0
  | true =>
    rw [settleAnswered_blank hsize hb] at hq
    obtain rfl := Option.some.inj hq
    exact h0

/-- It lies between nothing and the size. -/
theorem settleAnswered_range {resp : Dict} {side : FillAction} {size q : ℚ} {a : SettleAnswers}
    (h0 : 0 ≤ size) (hq : (settleAnswered resp side size a).1 = some q) :
    0 ≤ q ∧ q ≤ size + fillTol := by
  refine @settleAnswered_all (fun m => 0 ≤ m ∧ m ≤ size + fillTol) resp side size q a h0
    (reported_bounds _ h0) (fun r _ m hm => (plausibleQty_eq_some.mp hm).2) (fun m hm => ?_)
    ⟨le_rfl, add_nonneg h0 fillTol_pos.le⟩ hq
  have hm' := walletMoved_bounds h0 hm
  exact ⟨hm'.1.le, by linarith [fillTol_pos, hm'.2]⟩

theorem addRead_congr (ev : FillEvidence) {r r' : Reading}
    (h : (r.count ev.size, r.2) = (r'.count ev.size, r'.2)) :
    ev.addRead r.1 r.2 = ev.addRead r'.1 r'.2 := by
  obtain ⟨hcount, hstatus⟩ := Prod.mk.inj h
  have hplaus : plausibleQty r.1 ev.size = plausibleQty r'.1 ev.size := hcount
  unfold FillEvidence.addRead readTerminal
  rw [hplaus, hstatus]

theorem SameReading.cases {size : ℚ} {r r' : Option Reading} (h : SameReading size r r') :
    (r = none ∧ r' = none) ∨ ∃ x x', r = some x ∧ r' = some x' ∧
      (x.count size, x.2) = (x'.count size, x'.2) := by
  unfold SameReading at h
  cases r with
  | none => exact .inl ⟨rfl, by simpa using h.symm⟩
  | some x =>
    cases r' with
    | none => simp at h
    | some x' => exact .inr ⟨x, x', rfl, rfl, by simpa using h⟩

theorem cancelRounds_congr {orderId : String} {size : ℚ} {rounds rounds' : List Round}
    (h : List.Forall₂ (SameRound size) rounds rounds') (reason : Json) {ev : FillEvidence}
    (hsize : ev.size = size) :
    cancelRounds orderId rounds reason ev = cancelRounds orderId rounds' reason ev := by
  induction h generalizing reason ev with
  | nil => rfl
  | @cons r r' rest rest' hr _ ih =>
    unfold cancelRounds
    rw [hr.cancel, hr.late]
    have hread : SameReading size (readOrder r.read) (readOrder r'.read) := hr.reading
    rcases hread.cases with ⟨hn, hn'⟩ | ⟨x, x', hx, hx', hsame⟩
    · simp only [hn, hn', ih _ hsize]
    · have hadd : ev.addRead x.1 x.2 = ev.addRead x'.1 x'.2 := addRead_congr ev (hsize ▸ hsame)
      have hsize' : (ev.addRead x'.1 x'.2).2.size = size := by
        rw [FillEvidence.addRead_size, hsize]
      simp only [hx, hx', hadd, ih _ hsize']

theorem count_zero {size : ℚ} (h : 0 ≤ size) (r : Reading) :
    r.1 = some 0 ↔ r.count size = some 0 := by
  unfold Reading.count
  rw [plausibleQty_eq_some]
  exact ⟨fun hr => ⟨hr, le_rfl, add_nonneg h fillTol_pos.le⟩, fun hr => hr.1⟩

theorem settleOrder_congr {orderId : String} {size : ℚ} {a a' : SettleAnswers} (h : 0 ≤ size)
    (ha : SameAnswers size a a') {ev : FillEvidence} (hsize : ev.size = size) :
    settleOrder orderId a ev = settleOrder orderId a' ev := by
  have hloop : cancelWithRetry orderId a.rounds ev = cancelWithRetry orderId a'.rounds ev := by
    refine cancelRounds_congr ?_ _ hsize
    rw [List.forall₂_map_left_iff, List.forall₂_map_right_iff]
    exact List.forall₂_same.mpr fun k _ => ha.rounds k
  have hev : (cancelWithRetry orderId a'.rounds ev).2.2.size = size := by
    rw [cancelWithRetry_eq orderId size a' ev hsize]
    exact (FillEvidence.readAll_size _ _).trans hsize
  unfold settleOrder
  rw [hloop]
  rcases ha.final.cases with ⟨hn, hn'⟩ | ⟨x, x', hx, hx', hsame⟩
  · simp only [hn, hn']
  · have hadd := addRead_congr (cancelWithRetry orderId a'.rounds ev).2.2 (hev.symm ▸ hsame)
    have hzero : (x.1 = some 0) = (x'.1 = some 0) := by
      rw [eq_iff_iff, count_zero h, count_zero h, (Prod.mk.inj hsame).1]
    simp only [hx, hx', hadd, hzero]

/-- The settle hears nothing but plausible counts. -/
theorem settleAnswered_congr {resp resp' : Dict} {side : FillAction} {size : ℚ}
    {a a' : SettleAnswers} (h : 0 ≤ size)
    (hbody : SameBody size (postBody resp side) (postBody resp' side)) (ha : SameAnswers size a a') :
    settleAnswered resp side size a = settleAnswered resp' side size a' := by
  have hrep : (postBody resp side).reported size = (postBody resp' side).reported size := by
    rw [OrderResponse.reported, OrderResponse.reported, hbody.shares]
  simp only [settleAnswered, settleRestingRemainder, hrep, hbody.settled, hbody.orderId, ha.confirm]
  cases (postBody resp' side).orderId with
  | none => rfl
  | some orderId =>
    have hev := bodyEvidence_start_size (postBody resp' side) size
    simp only [settleOrder_congr h ha hev]

end OpenPoly
