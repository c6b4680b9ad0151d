import OpenPoly.Proofs.Store
import OpenPoly.Spec.LiveExecutor

/-! What follows a posted order: the call returns a result, a fill it reports is
one new row of the ledger, and a fill it could not store is reported as such. -/

namespace OpenPoly

def firstMove (side : FillAction) (preRaw : ℤ) (answers : List (Except PyErr Json)) : Option ℤ :=
  ((answers.filterMap readCtfBalanceRaw).map (ctfDelta side preRaw)).find? fun delta => 0 < delta

theorem confirmPolls_eq (side : FillAction) (preRaw : ℤ) (answers : List (Except PyErr Json)) :
    confirmPolls side preRaw answers =
      match firstMove side preRaw answers with
      | none => .ok (.fin 0)
      | some delta => (intTrueDiv delta (10 ^ ctfDecimals)).map .fin := by
  induction answers with
  | nil => rfl
  | cons answer rest ih =>
    unfold confirmPolls firstMove
    cases hr : readCtfBalanceRaw answer with
    | none =>
      rw [ih]
      simp [firstMove, hr]
    | some nowRaw =>
      by_cases hd : 0 < ctfDelta side preRaw nowRaw
      · simp [hr, hd]
      · simp only [hd, if_false, ih]
        simp [firstMove, hr, hd]

/-- The movement, in shares, is beyond the range of a float. -/
def movesTooFar (p : Placement) (v : VenueAnswers) : Bool :=
  (firstMove p.order.side p.preRaw ((List.range ctfPollAttempts).map v.after)).any
    fun delta : ℤ => floatOverflow ≤ |(delta : ℚ) / (10 ^ ctfDecimals : ℤ)|

theorem confirm_error_iff (p : Placement) (v : VenueAnswers) :
    (∃ exc, confirmLostOrderQty p.order.side p.preRaw v.after = .error exc) ↔
      movesTooFar p v = true := by
  unfold confirmLostOrderQty movesTooFar
  rw [confirmPolls_eq]
  cases firstMove p.order.side p.preRaw ((List.range ctfPollAttempts).map v.after) with
  | none => simp
  | some delta =>
    simp only [intTrueDiv, Option.any_some, decide_eq_true_eq]
    by_cases hbig : floatOverflow ≤ |(delta : ℚ) / (10 ^ ctfDecimals : ℤ)|
    · rw [if_pos hbig]
      exact ⟨fun _ => hbig, fun _ => ⟨_, rfl⟩⟩
    · rw [if_neg hbig]
      refine ⟨fun ⟨exc, h⟩ => ?_, fun h => absurd h hbig⟩
      cases h

/-- The POST raised, or answered no document, and the venue did not refuse it. -/
def lostAnswer (v : VenueAnswers) : Bool :=
  match postOrder v.post with
  | .error exc => (priceValidationError exc).isNone && (requestRefused exc).isNone
  | .ok _ => false

theorem fillFromBalance_error_iff (confirm : Except PyErr PyFloat) (side : FillAction)
    (size limitPrice : ℚ) (estimatePrice : Option (ℚ → ℚ)) :
    (∃ exc, fillFromBalance confirm side size limitPrice estimatePrice = .error exc) ↔
      ∃ exc, confirm = .error exc := by
  unfold fillFromBalance walletDelta
  cases confirm with
  | error exc => simp [bind, Except.bind]
  | ok moved =>
    have hnot : ∀ x : Except PyErr (Option ℚ), (∀ e, x ≠ .error e) →
        ∀ f : Option ℚ → Except PyErr (Except ExecResult (Option Fill)),
        (∀ q e, f q ≠ .error e) → ∀ e, (x >>= f) ≠ .error e := by
      intro x hx f hf e
      cases x with
      | error e' => exact (hx e' rfl).elim
      | ok q => exact hf q e
    constructor
    · rintro ⟨exc, h⟩
      refine (hnot _ ?_ _ ?_ exc h).elim
      · intro e
        cases moved <;> simp
      · intro q e
        cases q with
        | none => simp [pure, Except.pure]
        | some q =>
          by_cases hq : q ≤ 0
          · simp [hq, pure, Except.pure]
          · simp [hq, pure, Except.pure]
    · rintro ⟨exc, h⟩
      cases h

/-- An exception escapes exactly where the answer is lost and the balance moved
beyond the range of a float. -/
theorem orderFill_error_iff (p : Placement) (v : VenueAnswers) (estimatePrice : Option (ℚ → ℚ)) :
    (∃ exc, orderFill p v estimatePrice = .error exc) ↔
      lostAnswer v = true ∧ movesTooFar p v = true := by
  unfold orderFill lostAnswer
  cases postOrder v.post with
  | ok resp =>
    simp only [Bool.false_eq_true, false_and, iff_false]
    rintro ⟨exc, h⟩
    split_ifs at h
  | error exc =>
    cases hw : (priceValidationError exc).or (requestRefused exc) with
    | some words =>
      have hnone : ¬ ((priceValidationError exc).isNone && (requestRefused exc).isNone) = true := by
        intro h
        simp only [Bool.and_eq_true, Option.isNone_iff_eq_none] at h
        simp [h.1, h.2] at hw
      simp only [hw, hnone, Bool.false_eq_true, false_and, iff_false]
      rintro ⟨e, h⟩
      cases h
    | none =>
      obtain ⟨hv, hr⟩ := Option.or_eq_none_iff.mp hw
      rw [← confirm_error_iff, ← fillFromBalance_error_iff _ p.order.side p.order.size p.order.price
        estimatePrice]
      simp only [hv, hr, Option.isNone_none, Bool.and_self, true_and]
      cases hf : fillFromBalance (confirmLostOrderQty p.order.side p.preRaw v.after) p.order.side
        p.order.size p.order.price estimatePrice with
      | error e => simp
      | ok r =>
        cases r with
        | error skip => simp
        | ok fill => cases fill <;> simp

theorem resolveFill_error {resp : Dict} {side : FillAction} {size limitPrice : ℚ}
    {a : SettleAnswers} {estimatePrice : Option (ℚ → ℚ)} {r : ExecResult}
    (h : resolveFill resp side size limitPrice a estimatePrice = .error r) : r.filled = false := by
  unfold resolveFill resolveFillIn at h
  simp only at h
  split_ifs at h
  all_goals
    obtain rfl := Except.error.inj h
    rfl

theorem orderFill_skip {p : Placement} {v : VenueAnswers} {estimatePrice : Option (ℚ → ℚ)}
    {r : ExecResult} (h : orderFill p v estimatePrice = .ok (.error r)) : r.filled = false := by
  unfold orderFill at h
  cases hp : postOrder v.post with
  | ok resp =>
    simp only [hp] at h
    split_ifs at h
    · cases h
      rfl
    · exact resolveFill_error (Except.ok.inj h)
  | error exc =>
    simp only [hp] at h
    split at h
    · cases h
      rfl
    · split at h
      · cases h
      · next skip hf =>
        cases h
        -- the only skip of the lost path is an unknown fill
        unfold fillFromBalance at hf
        cases hw : walletDelta (confirmLostOrderQty p.order.side p.preRaw v.after) p.order.size with
        | error e => simp [hw, bind, Except.bind] at hf
        | ok q =>
          simp only [hw, bind, Except.bind, pure, Except.pure] at hf
          cases q with
          | none =>
            cases hf
            rfl
          | some q =>
            by_cases hq : q ≤ 0
            · simp [hq] at hf
            · simp [hq] at hf
      · cases h
        rfl
      · cases h

theorem persistRetry_ok {α : Type} {write : Except PyErr α} {outages : List (Option PyErr)}
    {last : Option PyErr} {x : α} (h : persistRetry write outages last = .ok x) : write = .ok x := by
  have honce : ∀ outage, writeOnce write outage = .ok x → write = .ok x := by
    intro outage h
    cases outage with
    | none => exact h
    | some exc => cases h
  induction outages with
  | nil => exact honce last h
  | cons outage outages ih =>
    unfold persistRetry at h
    split at h
    · exact ih h
    · exact honce outage h

theorem persistIrreversible_ok {α : Type} {write : Except PyErr α} {outage : ℕ → Option PyErr}
    {x : α} (h : persistIrreversible write outage = .ok x) : write = .ok x :=
  persistRetry_ok h

def ExecResult.persistFailed (r : ExecResult) : Bool :=
  match r.skipReason with
  | some (.openPersistFailed _) => true
  | some (.closePersistFailed _) => true
  | _ => false

/-- A result and the tables it comes with: one new fill for a filled one, and
untouched tables for a failed write. -/
def Stored (db : Db) (r : ExecResult) (db' : Db) : Prop :=
  (r.filled = true ∧ ∃ f, db'.fills = db.fills ++ [f] ∧ r.positionId = some f.positionId ∧
    r.price = some f.price) ∨
  (r.filled = false ∧ r.persistFailed = true ∧ db' = db)

theorem persistOpen_stored (db : Db) (intent : OrderIntent) (fill : Fill) (p : Placement)
    (newsId : Option String) (ts : ℚ) (outage : ℕ → Option PyErr) :
    Stored db (persistOpen db intent fill p newsId ts outage).1
      (persistOpen db intent fill p newsId ts outage).2 := by
  unfold persistOpen
  cases hw : persistIrreversible (db.openPosition (fill.openArgs intent p newsId ts)) outage with
  | error exc => exact .inr ⟨rfl, rfl, rfl⟩
  | ok r =>
    obtain ⟨-, hdb, hheld⟩ := openPosition_ok (persistIrreversible_ok hw)
    refine .inl ⟨rfl, { buyFill r.1.positionId (fill.openArgs intent p newsId ts) with
      id := nextId (db.fills.map FillRow.id) }, ?_, rfl, rfl⟩
    rw [hdb, hheld]
    rfl

theorem persistSell_stored (db : Db) (position : HeldPosition) (fill : Fill)
    (closeReason : CloseReason) (ts : ℚ) (trigger : Option String) (outage : ℕ → Option PyErr) :
    Stored db (persistSell db position fill closeReason ts trigger outage).1
      (persistSell db position fill closeReason ts trigger outage).2 := by
  unfold persistSell
  cases hw : persistIrreversible
    (db.recordSell position.positionId (fill.sellArgs closeReason ts trigger)) outage with
  | error exc => exact .inr ⟨rfl, rfl, rfl⟩
  | ok r =>
    obtain ⟨pos, hd, -⟩ := recordSell_ok (persistIrreversible_ok hw)
    have hid : pos.id = position.positionId := (Db.get_mem hd.found).2
    refine .inl ⟨rfl, _, by rw [hd.after]; rfl, ?_, rfl⟩
    exact congrArg some hid.symm

/-- What a call that posted `p` did. -/
def PlacedAs (db : Db) (p : Placement) (v : VenueAnswers) (estimatePrice : Option (ℚ → ℚ))
    (out : Outcome) : Prop :=
  out.posted = some p.order ∧
    match orderFill p v estimatePrice with
    | .error exc => out.result = .error exc ∧ out.db = db
    | .ok (.error skip) => out.result = .ok skip ∧ out.db = db
    | .ok (.ok _) => ∃ r, out.result = .ok r ∧ Stored db r out.db

theorem placed_as (db : Db) (p : Placement) (v : VenueAnswers) (estimatePrice : Option (ℚ → ℚ))
    {persist : Fill → ExecResult × Db} (h : ∀ fill, Stored db (persist fill).1 (persist fill).2) :
    PlacedAs db p v estimatePrice (placed db p v estimatePrice persist) := by
  unfold PlacedAs placed
  cases orderFill p v estimatePrice with
  | error exc => exact ⟨rfl, rfl, rfl⟩
  | ok r =>
    cases r with
    | error skip => exact ⟨rfl, rfl, rfl⟩
    | ok fill => exact ⟨rfl, _, rfl, h fill⟩

theorem executeBuy_placed {db : Db} {c : BuyCall} {p : Placement} (h : c.placement db = .ok p) :
    PlacedAs db p c.venue none (executeBuy db c) := by
  rw [executeBuy, h]
  exact placed_as db p c.venue none fun fill =>
    persistOpen_stored db c.intent fill p c.newsId c.ts c.outage

theorem executeSell_placed (db : Db) {c : SellCall} {p : Placement} (h : c.placement = .ok p) :
    PlacedAs db p c.venue (some (c.estimate p.order.price)) (executeSellUnguarded db c) := by
  rw [executeSellUnguarded, h]
  exact placed_as db p c.venue _ fun fill =>
    persistSell_stored db c.position fill c.closeReason c.ts c.trigger c.outage

/-- A call that gets past its guard is the unguarded one. -/
theorem executeSell_clear {s : LiveState} {c : SellCall} (h : s.clear c = true) :
    (executeSell s c).2 = executeSellUnguarded s.db c ∧
      (executeSell s c).1.db = (executeSellUnguarded s.db c).db := by
  unfold LiveState.clear at h
  unfold executeSell
  cases hp : s.resting c.position.positionId with
  | none => exact ⟨rfl, rfl⟩
  | some pending =>
    rw [hp, Option.all_some] at h
    simp only [h, Bool.not_true, Bool.false_eq_true, if_false]
    exact ⟨rfl, rfl⟩

theorem executeSell_blocked {s : LiveState} {c : SellCall} (h : s.clear c = false) :
    (executeSell s c).1 = s ∧ (executeSell s c).2.posted = none := by
  unfold LiveState.clear at h
  unfold executeSell
  cases hp : s.resting c.position.positionId with
  | none => simp [hp] at h
  | some pending =>
    rw [hp, Option.all_some] at h
    simp [h]

theorem liveCall_unplaced {s : LiveState} {c : LiveCall} (h : c.placement s = none) :
    (liveCall s c).2.posted = none := by
  cases c with
  | buy c =>
    simp only [LiveCall.placement] at h
    cases hp : c.placement s.db with
    | ok p => simp [hp, Except.toOption] at h
    | error skip => simp [liveCall, executeBuy, hp]
  | sell c =>
    simp only [LiveCall.placement] at h
    cases hclear : s.clear c with
    | false => exact (executeSell_blocked hclear).2
    | true =>
      rw [if_pos hclear] at h
      show (executeSell s c).2.posted = none
      rw [(executeSell_clear hclear).1]
      cases hp : c.placement with
      | ok p => simp [hp, Except.toOption] at h
      | error skip => simp [executeSellUnguarded, hp]

theorem liveCall_placed {s : LiveState} {c : LiveCall} {p : Placement}
    (h : c.placement s = some p) :
    PlacedAs s.db p c.venue (c.estimate p) (liveCall s c).2 ∧
      (liveCall s c).1.db = (liveCall s c).2.db := by
  cases c with
  | buy c =>
    simp only [LiveCall.placement] at h
    cases hp : c.placement s.db with
    | error skip => simp [hp, Except.toOption] at h
    | ok q =>
      obtain rfl : q = p := by simpa [hp, Except.toOption] using h
      exact ⟨executeBuy_placed hp, rfl⟩
  | sell c =>
    simp only [LiveCall.placement] at h
    cases hclear : s.clear c with
    | false => simp [hclear] at h
    | true =>
      rw [if_pos hclear] at h
      cases hp : c.placement with
      | error skip => simp [hp, Except.toOption] at h
      | ok q =>
        obtain rfl : q = p := by simpa [hp, Except.toOption] using h
        obtain ⟨hout, hdb⟩ := executeSell_clear hclear
        have hplaced := executeSell_placed s.db hp
        simp only [liveCall, LiveCall.venue, LiveCall.estimate, hout, hdb]
        exact ⟨hplaced, trivial⟩

theorem posted_iff (s : LiveState) (c : LiveCall) :
    (liveCall s c).2.posted = (c.placement s).map Placement.order := by
  cases hp : c.placement s with
  | none => exact liveCall_unplaced hp
  | some p => exact (liveCall_placed hp).1.1

/-- A posted order's call returns; a filled result has one new fill in the
ledger, any other none; a fill established but not stored is a persist failure. -/
def ReturnsSoundly (s : LiveState) (c : LiveCall) : Prop :=
  ∀ p, c.placement s = some p →
    ∃ r, (liveCall s c).2.posted = some p.order ∧ (liveCall s c).2.result = .ok r ∧
      (r.filled = true → ∃ f, (liveCall s c).1.db.fills = s.db.fills ++ [f] ∧
        r.positionId = some f.positionId ∧ r.price = some f.price) ∧
      (r.filled = false → (liveCall s c).1.db = s.db) ∧
      ∀ fill, orderFill p c.venue (c.estimate p) = .ok (.ok fill) → r.filled = false →
        r.persistFailed = true

/-- The call posts, its answer is lost, and the balance then moves beyond the
range of a float. -/
def overflowsAfterPost (s : LiveState) (c : LiveCall) : Bool :=
  (c.placement s).any fun p => lostAnswer c.venue && movesTooFar p c.venue

/-- Every call that posts an order ends soundly, but for those whose lost answer
is followed by a balance no float can hold. -/
theorem posted_returns (s : LiveState) (c : LiveCall) :
    ReturnsSoundly s c ↔ overflowsAfterPost s c = false := by
  unfold ReturnsSoundly overflowsAfterPost
  cases hp : c.placement s with
  | none => simp
  | some p =>
    obtain ⟨⟨hposted, hmatch⟩, hdb⟩ := liveCall_placed hp
    have herr := orderFill_error_iff p c.venue (c.estimate p)
    rw [← Bool.and_eq_true] at herr
    rw [Option.any_some, ← Bool.not_eq_true, ← herr]
    constructor
    · rintro h ⟨exc, hexc⟩
      obtain ⟨r, -, hr, -⟩ := h p rfl
      rw [hexc] at hmatch
      rw [hmatch.1] at hr
      cases hr
    · rintro h q hq
      obtain rfl := Option.some.inj hq
      rw [hdb]
      cases hf : orderFill p c.venue (c.estimate p) with
      | error exc => exact (h ⟨exc, hf⟩).elim
      | ok res =>
        rw [hf] at hmatch
        cases res with
        | error skip =>
          have hskip := orderFill_skip hf
          exact ⟨skip, hposted, hmatch.1, fun hfill => by simp [hskip] at hfill, fun _ => hmatch.2,
            fun fill hfill => by cases hfill⟩
        | ok fill =>
          obtain ⟨r, hr, ⟨hfilled, f, hfills, hid, hprice⟩ | ⟨hnot, hfail, hsame⟩⟩ := hmatch
          · exact ⟨r, hposted, hr, fun _ => ⟨f, hfills, hid, hprice⟩,
              fun hn => by simp [hfilled] at hn, fun _ _ hn => by simp [hfilled] at hn⟩
          · exact ⟨r, hposted, hr, fun hfilled => by simp [hnot] at hfilled, fun _ => hsame,
              fun _ _ _ => hfail⟩

def sampleMarket : Market where
  marketId := "m1"
  conditionId := "0xc1"
  yesTokenId := "t1"
  noTokenId := some "t2"

def sampleCatalog : Catalog where
  markets marketId := if marketId = "m1" then some sampleMarket else none
  books tokenId := if tokenId = "t1" then some ⟨"t1", 1, [(1 / 2, 100)], [(3 / 5, 100)]⟩ else none

def balanceOf (raw : ℤ) : Except PyErr Json := .ok (.obj [("balance", .int raw)])

/-- The POST times out; the balance then reads `raw`. -/
def timedOut (raw : ℤ) : VenueAnswers where
  before _ := balanceOf 0
  post := .error (.other "ReadTimeout")
  rounds _ := ⟨.ok .null, .ok .null, true⟩
  final := .ok .null
  after _ := balanceOf raw

def timedOutBuy (raw : ℤ) : LiveCall :=
  .buy { catalog := sampleCatalog, intent := ⟨"m1", .yes, 1 / 2, 10, none, none, none, none, none⟩,
         ts := 1, venue := timedOut raw }

example : ((liveCall ⟨.empty, fun _ => none⟩ (timedOutBuy (6 * 10 ^ 6))).1.db.fills.map FillRow.qty) =
    [6] := by decide +kernel

/-- A 400-digit balance after the order: `OverflowError` escapes the call. -/
theorem lost_answer_overflow :
    (liveCall ⟨.empty, fun _ => none⟩ (timedOutBuy (10 ^ 400))).2.posted.isSome = true ∧
      ¬ ReturnsSoundly ⟨.empty, fun _ => none⟩ (timedOutBuy (10 ^ 400)) := by
  have hp : ((timedOutBuy (10 ^ 400)).placement ⟨.empty, fun _ => none⟩).isSome = true := by
    decide +kernel
  have hraise : (match (liveCall ⟨.empty, fun _ => none⟩ (timedOutBuy (10 ^ 400))).2.result with
      | .ok _ => false
      | .error exc => exc == .overflowError) = true := by decide +kernel
  obtain ⟨p, hp⟩ := Option.isSome_iff_exists.mp hp
  refine ⟨by rw [posted_iff, hp]; rfl, fun h => ?_⟩
  obtain ⟨r, -, hr, -⟩ := h p hp
  rw [hr] at hraise
  cases hraise

end OpenPoly
