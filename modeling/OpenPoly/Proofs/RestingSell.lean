import OpenPoly.Lib.Run
import OpenPoly.Proofs.Outcome
import OpenPoly.Proofs.Posted

/-! No second SELL on top of one that may still rest. Beside the executor's own
map runs the list of the SELLs the venue's answers left possibly resting; the map
keeps up with it as long as no fill of such an order fails to be stored and no check takes
an impossible size for a complete fill. -/

namespace OpenPoly

open Transition

def Placement.answers (p : Placement) (v : VenueAnswers) : SettleAnswers :=
  ⟨v.rounds, v.final, confirmLostOrderQty p.order.side p.preRaw v.after⟩

/-- The usable id of an answered order that ended its settle with neither an
acknowledged cancel nor a terminal reading nor a full-size fill. -/
def leftResting (p : Placement) (v : VenueAnswers) : Option String :=
  match postOrder v.post with
  | .error _ => none
  | .ok resp =>
    if orderWasRejected resp then none
    else if (postBody resp p.order.side).covers p.order.size ||
        knownOff (postBody resp p.order.side) p.order.size (p.answers v) then none
    else (postBody resp p.order.side).orderId

def showsFill (p : Placement) (v : VenueAnswers) : Bool :=
  match postOrder v.post with
  | .error _ => false
  | .ok resp =>
    !(lowerBounds (postBody resp p.order.side) p.order.size (p.answers v)).isEmpty ||
      (walletMoved (p.answers v) p.order.size).isSome

theorem showsFill_of_settled {body : OrderResponse} {resp : Dict} {side : FillAction} {size q : ℚ}
    {a : SettleAnswers} (hsize : 0 ≤ size) (hbody : postBody resp side = body)
    (hcov : body.covers size = false) (hoff : knownOff body size a = false)
    (hq : (settleAnswered resp side size a).1 = some q) (hne : q ≠ 0) :
    lowerBounds body size a ≠ [] ∨ (walletMoved a size).isSome = true := by
  subst hbody
  have hc : Concluded (postBody resp side) size a (some q) := by
    rw [← hq]
    refine (concluded_settleAnswered a hsize).mpr ?_
    by_contra hblank
    rw [settleAnswered_blank hsize (by simpa using hblank)] at hq
    exact hne (Option.some.inj hq).symm
  unfold Concluded at hc
  rw [if_neg (by simp [hcov])] at hc
  cases hcount : (finalCounts size (readsOf (postBody resp side) size a)).getLast? with
  | some count =>
    rw [knownOff_of_count hcount] at hoff
    cases hoff
  | none =>
    rw [hcount] at hc
    by_cases hb : lowerBounds (postBody resp side) size a = []
    · simp only [hb, ne_eq, not_true_eq_false, if_false] at hc
      cases hw : walletMoved a size with
      | some moved => exact .inr rfl
      | none =>
        simp [hw, hoff] at hc
    · exact .inl hb

/-- An order left resting is named by its outcome, fill or skip, and a fill of
it is one some source shows. -/
theorem leftResting_outcome {p : Placement} {v : VenueAnswers} (estimatePrice : Option (ℚ → ℚ))
    {orderId : String} (hsize : 0 ≤ p.order.size) (h : leftResting p v = some orderId) :
    (∃ skip, orderFill p v estimatePrice = .ok (.error skip) ∧
      skip.restingOrderId = some orderId) ∨
    ∃ fill, orderFill p v estimatePrice = .ok (.ok fill) ∧ fill.resting = true ∧
      fill.orderId = some orderId ∧ showsFill p v = true := by
  unfold leftResting at h
  unfold orderFill showsFill
  cases hp : postOrder v.post with
  | error exc => simp [hp] at h
  | ok resp =>
    simp only [hp] at h ⊢
    by_cases hrej : orderWasRejected resp = true
    · simp [hrej] at h
    rw [if_neg hrej] at h
    rw [if_neg hrej]
    split_ifs at h with hdone
    rw [Bool.not_eq_true, Bool.or_eq_false_iff] at hdone
    have hrests := settleAnswered_rests resp p.order.side p.order.size (p.answers v)
    rw [hdone.1, hdone.2] at hrests
    have hid := resolveFill_restingId resp p.order.side p.order.size p.order.price (p.answers v)
      estimatePrice
    rw [hrests] at hid
    cases hf : resolveFill resp p.order.side p.order.size p.order.price (p.answers v)
      estimatePrice with
    | error skip =>
      rw [hf] at hid
      exact .inl ⟨skip, by rw [← hf]; rfl, hid.trans h⟩
    | ok fill =>
      have hf' := hf
      unfold resolveFill resolveFillIn at hf'
      cases hs : settleAnswered resp p.order.side p.order.size (p.answers v) with
      | mk qty resting =>
        rw [hs] at hrests
        simp only [hs] at hf'
        split_ifs at hf' with hzero
        obtain rfl := Except.ok.inj hf'
        obtain ⟨q, rfl⟩ : ∃ q, qty = some q := by
          cases qty with
          | none => exact (hzero rfl).elim
          | some q => exact ⟨q, rfl⟩
        have hshow := showsFill_of_settled hsize rfl hdone.1 hdone.2 (by rw [hs]; rfl) hzero
        refine .inr ⟨_, by rw [← hf]; rfl, hrests, h, ?_⟩
        rcases hshow with hb | hw
        · simp [hb]
        · simp [hw]

/-- Some attempt meets no outage, and those before it only a locked database. -/
def storable : List (Option PyErr) → Bool
  | [] => false
  | none :: _ => true
  | some .operationalError :: rest => storable rest
  | some _ :: _ => false

theorem persistRetry_lands {α : Type} {x : α} {outages : List (Option PyErr)} {last : Option PyErr}
    (h : storable (outages ++ [last]) = true) : persistRetry (.ok x) outages last = .ok x := by
  induction outages with
  | nil =>
    cases last with
    | none => rfl
    | some exc => cases exc <;> simp [storable] at h
  | cons outage outages ih =>
    cases outage with
    | none => rfl
    | some exc =>
      cases exc with
      | operationalError => exact ih h
      | _ => simp [storable] at h

theorem persistIrreversible_lands {α : Type} {x : α} {outage : ℕ → Option PyErr}
    (h : storable ((List.range persistAttempts).map outage) = true) :
    persistIrreversible (.ok x) outage = .ok x := by
  have hsplit : (List.range persistAttempts).map outage =
      (List.range (persistAttempts - 1)).map outage ++ [outage (persistAttempts - 1)] := rfl
  rw [hsplit] at h
  exact persistRetry_lands h

def SellCall.lands (c : SellCall) (db : Db) : Bool :=
  (db.requireOpen c.position.positionId).isOk && storable ((List.range persistAttempts).map c.outage)

theorem persistSell_lands {db : Db} {c : SellCall} (h : c.lands db = true) (fill : Fill) :
    ∃ db', persistSell db c.position fill c.closeReason c.ts c.trigger c.outage =
      (.ok fill.price fill.qty c.position.positionId (if fill.resting then fill.orderId else none),
        db') := by
  obtain ⟨hopen, hstore⟩ := Bool.and_eq_true_iff.mp h
  cases hr : db.requireOpen c.position.positionId with
  | error exc => simp [hr, Except.isOk, Except.toBool] at hopen
  | ok pos =>
    have hsell : ∃ x, db.recordSell c.position.positionId
        (fill.sellArgs c.closeReason c.ts c.trigger) = .ok x := by
      unfold Db.recordSell
      rw [hr]
      exact ⟨_, rfl⟩
    obtain ⟨x, hx⟩ := hsell
    refine ⟨x.2, ?_⟩
    unfold persistSell
    rw [hx, persistIrreversible_lands hstore]

theorem sellPlacement_size {c : SellCall} {p : Placement} (h : c.placement = .ok p) :
    0 ≤ p.order.size ∧ p.order.size = quantizeSize c.position.qty 1 := by
  unfold SellCall.placement sellPlacement at h
  cases hm : c.catalog.markets c.position.marketId with
  | none => simp [hm] at h
  | some market =>
    cases hb : (c.catalog.books c.position.tokenId).bind OrderBook.bestBid with
    | none => simp [hm, hb] at h
    | some bid =>
      simp only [hm, hb] at h
      split_ifs at h with hband hdust
      split at h
      · cases h
      · cases h
        exact ⟨(not_le.mp hdust).le, rfl⟩

/-- A call that leaves an order resting names it in its result, unless a fill of
the order could not be stored. -/
theorem leftResting_result (db : Db) {c : SellCall} {p : Placement} {orderId : String}
    (hp : c.placement = .ok p) (hleft : leftResting p c.venue = some orderId)
    (hlands : showsFill p c.venue = true → c.lands db = true) :
    ∃ r, (executeSellUnguarded db c).result = .ok r ∧ r.restingOrderId = some orderId := by
  have hout := leftResting_outcome (some (c.estimate p.order.price)) (sellPlacement_size hp).1 hleft
  rw [executeSellUnguarded, hp]
  unfold placed
  rcases hout with ⟨skip, hf, hid⟩ | ⟨fill, hf, hrest, hid, hshow⟩
  · exact ⟨skip, by simp only [hf], hid⟩
  · obtain ⟨db', hstored⟩ := persistSell_lands (hlands hshow) fill
    refine ⟨_, by simp only [hf]; rfl, ?_⟩
    simp [hstored, ExecResult.ok, hrest, hid]

/-- A SELL the venue's answers left possibly resting. -/
structure LeftSell where
  positionId : ℕ
  orderId : String
  size : ℚ
  deriving DecidableEq, Repr

/-- The executor, and beside it every SELL that may rest. -/
structure SellTrace where
  live : LiveState
  left : List LeftSell

def SellTrace.init (db : Db) : SellTrace := ⟨⟨db, fun _ => none⟩, []⟩

inductive SellEvent where
  | sell (c : SellCall)
  /-- Anything else that writes the ledger. -/
  | ledger (db : Db)

/-- The answers to a check show an order of this size off the book: its cancel is
acknowledged, or a read of it is terminal, sizes it cannot have filled left out. -/
def checkShows (orderId : String) (size : ℚ) (cancel read : Except PyErr Json) : Bool :=
  cancelAcked orderId cancel || (readOrder read).any fun r => readTerminal size r.1 r.2

/-- `c` checks this very order, and the answers show it off the book. -/
def shownOff (s : LiveState) (c : SellCall) (o : LeftSell) : Bool :=
  o.positionId = c.position.positionId &&
    ((s.resting o.positionId).any fun pending => pending.orderId = o.orderId) &&
      checkShows o.orderId o.size c.checkCancel c.checkRead

/-- What may still rest once the check of `c` was made. -/
def SellTrace.leftAfterCheck (t : SellTrace) (c : SellCall) : List LeftSell :=
  t.left.filter fun o => !shownOff t.live c o

/-- What the order `c` posts leaves resting. -/
def newlyLeft (s : LiveState) (c : SellCall) : List LeftSell :=
  match (LiveCall.sell c).placement s with
  | none => []
  | some p =>
    ((leftResting p c.venue).map fun orderId =>
      ⟨c.position.positionId, orderId, p.order.size⟩).toList

def SellTrace.step (t : SellTrace) : SellEvent → SellTrace
  | .sell c => ⟨(executeSell t.live c).1, newlyLeft t.live c ++ t.leftAfterCheck c⟩
  | .ledger db => ⟨{ t.live with db := db }, t.left⟩

abbrev sellStep (t : SellTrace) (e : SellEvent) (u : SellTrace) : Prop := u = t.step e

/-- No fill of a SELL left resting fails to be stored. -/
def StoresResting (t : SellTrace) : SellEvent → Prop
  | .sell c => ∀ p, (LiveCall.sell c).placement t.live = some p →
      (leftResting p c.venue).isSome = true → showsFill p c.venue = true →
      c.lands t.live.db = true
  | .ledger _ => True

/-- Without an acknowledged cancel or a final status, a check finds the order filled only by
a size it can have filled. -/
def PlausibleCheck (s : LiveState) (c : SellCall) : Prop :=
  ∀ pending, s.resting c.position.positionId = some pending →
    cancelAcked pending.orderId c.checkCancel = true ∨
      ∀ m status, readOrder c.checkRead = some (some m, status) →
        orderDone status = true ∨
          (pending.size - fillTol ≤ m → (plausibleQty (some m) pending.size).isSome = true)

/-- A step that stores what it leaves resting, and whose check goes by a plausible read. -/
def KeepsTrack (t : SellTrace) : SellEvent → Prop
  | .sell c => StoresResting t (.sell c) ∧ PlausibleCheck t.live c
  | .ledger _ => True

/-- The guard passes on nothing but what shows the order off the book. -/
theorem PlausibleCheck.shows {s : LiveState} {c : SellCall} {pending : RestingOrder} (h : PlausibleCheck s c)
    (hpend : s.resting c.position.positionId = some pending)
    (hoff : restingOrderOffBook pending c.checkCancel c.checkRead = true) :
    checkShows pending.orderId pending.size c.checkCancel c.checkRead = true := by
  unfold checkShows
  rw [Bool.or_eq_true]
  rcases h pending hpend with hacked | hread
  · exact .inl hacked
  · refine (Bool.or_eq_true _ _ |>.mp hoff).imp_right fun hany => ?_
    obtain ⟨⟨matched, status⟩, hr, hterminal⟩ := Option.any_eq_true .. |>.mp hany
    refine Option.any_eq_true .. |>.mpr ⟨(matched, status), hr, ?_⟩
    unfold readTerminal
    rw [Bool.or_eq_true] at hterminal ⊢
    rcases hterminal with hdone | hfull
    · exact .inl hdone
    · obtain ⟨m, rfl, hm⟩ := Option.any_eq_true .. |>.mp hfull
      refine (hread m status hr).imp_right fun hvetted => ?_
      obtain ⟨q, hq⟩ := Option.isSome_iff_exists.mp (hvetted (of_decide_eq_true hm))
      obtain rfl : m = q := Option.some.inj (plausibleQty_eq_some.mp hq).1
      exact Option.any_eq_true .. |>.mpr ⟨m, hq, hm⟩

/-- Every SELL that may rest is the one its position's entry names. -/
def Tracked (t : SellTrace) : Prop :=
  ∀ o ∈ t.left, ∃ pending, t.live.resting o.positionId = some pending ∧
    pending.orderId = o.orderId ∧ pending.size = o.size

theorem tracked_init (db : Db) : Tracked (SellTrace.init db) := by
  intro o ho
  simp [SellTrace.init] at ho

/-- Past the guard, nothing of the position is left. -/
theorem Tracked.clear {t : SellTrace} (h : Tracked t) {c : SellCall} (hcheck : PlausibleCheck t.live c)
    (hclear : t.live.clear c = true) {o : LeftSell} (ho : o ∈ t.leftAfterCheck c) :
    o.positionId ≠ c.position.positionId := by
  obtain ⟨hmem, hshown⟩ := List.mem_filter.mp ho
  intro heq
  obtain ⟨pending, hpend, hid, hsize⟩ := h o hmem
  rw [heq] at hpend
  have hoff : restingOrderOffBook pending c.checkCancel c.checkRead = true := by
    unfold LiveState.clear at hclear
    rwa [hpend, Option.all_some] at hclear
  have hshows := hcheck.shows hpend hoff
  rw [hid, hsize] at hshows
  have htrue : shownOff t.live c o = true := by
    rw [shownOff, heq, hpend]
    simp [hid, hshows]
  simp [htrue] at hshown

theorem resting_other (s : LiveState) (c : SellCall) {i : ℕ} (hi : i ≠ c.position.positionId) :
    (executeSell s c).1.resting i = s.resting i := by
  have hafter : ∀ (s' : LiveState) (out : Outcome), s'.restingAfter c out i = s'.resting i := by
    intro s' out
    unfold LiveState.restingAfter
    cases out.result with
    | error exc => rfl
    | ok r =>
      cases hentry : restingEntry c r with
      | none => simp only [hentry]
      | some entry =>
        simp only [hentry]
        exact Function.update_of_ne hi _ _
  unfold executeSell
  cases s.resting c.position.positionId with
  | none => exact hafter s _
  | some pending =>
    simp only
    split_ifs
    · rfl
    · exact (hafter _ _).trans (Function.update_of_ne hi _ _)

/-- Past the guard, a result that names a resting order leaves it in the map. -/
theorem resting_named {s : LiveState} {c : SellCall} (hclear : s.clear c = true) {r : ExecResult}
    {orderId : String} (hr : (executeSellUnguarded s.db c).result = .ok r)
    (hid : r.restingOrderId = some orderId) :
    ∃ pending, (executeSell s c).1.resting c.position.positionId = some pending ∧
      pending.orderId = orderId ∧ pending.size = quantizeSize c.position.qty 1 := by
  have hafter : ∀ s' : LiveState, s'.db = s.db →
      ∃ pending, (sellPast s' c).1.resting c.position.positionId = some pending ∧
        pending.orderId = orderId ∧ pending.size = quantizeSize c.position.qty 1 := by
    intro s' hdb
    simp only [sellPast, LiveState.restingAfter, hdb, hr, restingEntry, hid, Option.map_some,
      Function.update_self]
    exact ⟨_, rfl, rfl, rfl⟩
  unfold LiveState.clear at hclear
  unfold executeSell
  cases hp : s.resting c.position.positionId with
  | none => exact hafter s rfl
  | some pending =>
    rw [hp, Option.all_some] at hclear
    simp only [hclear, Bool.not_true, Bool.false_eq_true, if_false]
    exact hafter _ rfl

/-- The step lemma: the map keeps up with what may rest. -/
theorem tracked_step {t : SellTrace} {e : SellEvent} (h : Tracked t) (hg : KeepsTrack t e) :
    Tracked (t.step e) := by
  cases e with
  | ledger db => exact h
  | sell c =>
    intro o ho
    cases hclear : t.live.clear c with
    | false =>
      -- blocked: nothing posted, nothing changed
      have hnone : newlyLeft t.live c = [] := by simp [newlyLeft, LiveCall.placement, hclear]
      simp only [SellTrace.step, hnone, List.nil_append] at ho
      simp only [SellTrace.step, (executeSell_blocked hclear).1]
      exact h o (List.mem_filter.mp ho).1
    | true =>
      rcases List.mem_append.mp ho with hnew | hold
      · unfold newlyLeft at hnew
        cases hp : (LiveCall.sell c).placement t.live with
        | none => simp [hp] at hnew
        | some p =>
          simp only [hp, Option.mem_toList, Option.map_eq_some_iff] at hnew
          obtain ⟨orderId, hleft, rfl⟩ := hnew
          have hplace : c.placement = .ok p := by
            simp only [LiveCall.placement, hclear, if_true] at hp
            cases hc : c.placement with
            | error skip => simp [hc, Except.toOption] at hp
            | ok q => simpa [hc, Except.toOption] using hp
          obtain ⟨r, hr, hid⟩ := leftResting_result t.live.db hplace hleft
            (hg.1 p hp (by rw [hleft]; rfl))
          rw [(sellPlacement_size hplace).2]
          exact resting_named hclear hr hid
      · have hne := h.clear hg.2 hclear hold
        obtain ⟨pending, hpend, hsame⟩ := h o (List.mem_filter.mp hold).1
        exact ⟨pending, by rw [← hpend]; exact resting_other t.live c hne, hsame⟩

theorem tracked_run {db : Db} {es : List SellEvent} {t : SellTrace}
    (h : Run (guarded KeepsTrack sellStep) (SellTrace.init db) es t) : Tracked t := by
  refine h.invariant ?_ (tracked_init db)
  rintro s e _ hi ⟨hg, rfl⟩
  exact tracked_step hi hg

/-- Where no fill of a SELL left resting fails to be stored, and no check goes by a size its
order cannot have filled, a SELL is posted for a position only once every earlier one of
it is shown off the book. -/
theorem sells_wait_for_resting {db : Db} {es : List SellEvent} {t : SellTrace}
    (h : Run (guarded KeepsTrack sellStep) (SellTrace.init db) es t) (c : SellCall)
    (hcheck : PlausibleCheck t.live c) (hposted : (executeSell t.live c).2.posted.isSome = true) :
    ∀ o ∈ t.leftAfterCheck c, o.positionId ≠ c.position.positionId := by
  cases hclear : t.live.clear c with
  | false =>
    rw [(executeSell_blocked hclear).2] at hposted
    cases hposted
  | true => exact fun o ho => (tracked_run h).clear hcheck hclear ho

def heldRow : PositionRow :=
  openRow 1 { marketId := "m1", side := .yes, tokenId := "t1", conditionId := "0xc1",
              price := 2 / 5, qty := 10, ts := 1 }

def refused (orderId : String) : Except PyErr Json :=
  .ok (.obj [("not_canceled", .obj [(orderId, .str "delayed")])])

/-- Four of the ten shares cross, and the cancel of the rest is refused. -/
def partlySold : VenueAnswers where
  before _ := balanceOf (10 * 10 ^ 6)
  post := .ok (.obj [("success", .bool true), ("orderID", .str "0xb1"),
    ("makingAmount", .str "4"), ("takingAmount", .str "2")])
  rounds _ := ⟨refused "0xb1", .error (.other "ReadTimeout"), true⟩
  final := .error (.other "ReadTimeout")
  after _ := balanceOf (10 * 10 ^ 6)

def sellOf (outage : Option PyErr) (checkCancel : Except PyErr Json) : SellCall where
  catalog := sampleCatalog
  position := heldRow.toHeld
  closeReason := .manual
  ts := 2
  venue := partlySold
  outage _ := outage
  checkCancel := checkCancel
  checkRead := .error (.other "ReadTimeout")

def heldDb : Db := ⟨[heldRow], []⟩

/-- The cancel of the first order is acknowledged before the second is posted. -/
def ackedSell : SellCall := sellOf none (.ok (.obj [("canceled", .arr [.str "0xb1"])]))

theorem sells_wait_for_resting_sample :
    ((SellTrace.init heldDb).step (.sell (sellOf none (refused "0xb1")))).left ≠ [] ∧
    (executeSell ((SellTrace.init heldDb).step (.sell (sellOf none (refused "0xb1")))).live
      ackedSell).2.posted.isSome = true ∧
    ∀ o ∈ ((SellTrace.init heldDb).step (.sell (sellOf none (refused "0xb1")))).leftAfterCheck
      ackedSell, o.positionId ≠ ackedSell.position.positionId := by
  have hlands : (sellOf none (refused "0xb1")).lands heldDb = true := by decide +kernel
  have hposted : (executeSell ((SellTrace.init heldDb).step
      (.sell (sellOf none (refused "0xb1")))).live ackedSell).2.posted.isSome = true := by
    decide +kernel
  have hstores : KeepsTrack (SellTrace.init heldDb) (.sell (sellOf none (refused "0xb1"))) :=
    ⟨fun _ _ _ _ => hlands, fun _ hpend => by cases hpend⟩
  have hpending : ((SellTrace.init heldDb).step (.sell (sellOf none (refused "0xb1")))).live.resting 1 =
      some ⟨"0xb1", 10, 4⟩ := by decide +kernel
  have hcheck : PlausibleCheck ((SellTrace.init heldDb).step
      (.sell (sellOf none (refused "0xb1")))).live ackedSell := by
    intro pending hpend
    obtain rfl := Option.some.inj (hpending.symm.trans hpend)
    exact .inl (by decide +kernel)
  exact ⟨by decide +kernel, hposted,
    sells_wait_for_resting (Run.single ⟨hstores, rfl⟩) ackedSell hcheck hposted⟩

/-- The cancel is refused, and the read reports a hundred thousand times the order. -/
def overreadSell : SellCall :=
  { sellOf none (refused "0xb1") with
    checkRead := .ok (.obj [("status", .str "LIVE"), ("size_matched", .str "1000000")]) }

/-- Two ways to post on top of an order that may rest: the fill of the first SELL cannot be
stored and its order is forgotten; or the check takes a matched size no order of ten shares
can have for a complete fill. -/
theorem lost_write_sells_twice :
    (∃ t, Run sellStep (SellTrace.init heldDb)
        [.sell (sellOf (some .integrityError) (refused "0xb1"))] t ∧
      (executeSell t.live (sellOf none (refused "0xb1"))).2.posted.isSome = true ∧
      ∃ o ∈ t.leftAfterCheck (sellOf none (refused "0xb1")), o.positionId = 1 ∧ o.orderId = "0xb1") ∧
    ∃ t, Run sellStep (SellTrace.init heldDb) [.sell (sellOf none (refused "0xb1"))] t ∧
      (executeSell t.live overreadSell).2.posted.isSome = true ∧
      ∃ o ∈ t.leftAfterCheck overreadSell, o.positionId = 1 ∧ o.orderId = "0xb1" :=
  ⟨⟨_, Run.single rfl, by decide +kernel, ⟨1, "0xb1", 10⟩, by decide +kernel, rfl, rfl⟩,
    _, Run.single rfl, by decide +kernel, ⟨1, "0xb1", 10⟩, by decide +kernel, rfl, rfl⟩

end OpenPoly
