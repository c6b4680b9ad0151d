import OpenPoly.Proofs.Discovery
import OpenPoly.Proofs.Ledger
import OpenPoly.Proofs.MarketData
import OpenPoly.Proofs.Store
import OpenPoly.Spec.SettlementMonitor

/-! Polls, book fetches and settlement ticks on whatever the endpoints answer: each
goes on past the malformed parts of an answer exactly where none of them raises. -/

namespace OpenPoly

open Results

/-- The answer that counts: a document refused with a `ValueError` is asked for
once more. -/
def countedAnswer (env : PyEnv) (first second : Json) : Json :=
  match first.decodes env.maxDepth with
  | .error .valueError => second
  | _ => first

def Readable (env : PyEnv) (payload : Json) : Prop := payload.decodes env.maxDepth = .ok ()

theorem getJson_eq (env : PyEnv) (first second : Json) :
    getJson env first second = responseJson env (countedAnswer env first second) := by
  unfold getJson countedAnswer
  cases h : first.decodes env.maxDepth with
  | ok u => simp [responseJson, h, Except.map]
  | error e => cases e <;> simp [responseJson, h, Except.map]

theorem getJson_of_readable {env : PyEnv} {first second : Json}
    (h : Readable env (countedAnswer env first second)) :
    getJson env first second = .ok (countedAnswer env first second) := by
  rw [getJson_eq, responseJson, h]
  rfl

theorem getJson_of_not_readable {env : PyEnv} {first second : Json}
    (h : ¬ Readable env (countedAnswer env first second)) : Fails (getJson env first second) := by
  rw [getJson_eq, responseJson, fails_map]
  by_contra hok
  obtain ⟨u, hu⟩ := not_fails.mp hok
  exact h hu

/-- What Gamma answers a poll: both attempts at the events, and at each market
looked up by its id. -/
structure GammaAnswers where
  events : Json × Json
  market : String → Json × Json

def GammaAnswers.eventsAnswer (a : GammaAnswers) (env : PyEnv) : Json :=
  countedAnswer env a.events.1 a.events.2

def GammaAnswers.fetched (a : GammaAnswers) (env : PyEnv) (id : String) : Option ListedMarket :=
  fetchMarketById env (a.market id).1 (a.market id).2

def GammaAnswers.poll (a : GammaAnswers) (env : PyEnv) (now ts : ℚ) (positions : Option (List String)) :
    Poll where
  pairs := discoverEvents env a.events.1 a.events.2
  now := now
  ts := ts
  positions := positions
  lookup := fun id => .ok (a.fetched env id)

/-- What some inputs hold, in their order: a malformed one holds no market. -/
inductive Holds {α : Type} (Is : α → ListedMarket → Prop) : List α → List ListedMarket → Prop
  | nil : Holds Is [] []
  | market {x : α} {m : ListedMarket} {xs : List α} {markets : List ListedMarket} (isMarket : Is x m)
      (rest : Holds Is xs markets) : Holds Is (x :: xs) (m :: markets)
  | malformed {x : α} {xs : List α} {markets : List ListedMarket} (isNone : ∀ m, ¬ Is x m)
      (rest : Holds Is xs markets) : Holds Is (x :: xs) markets

def Kept (env : PyEnv) (config : MarketFilterConfig) (now : ℚ) (events : Json) (kept : List ListedMarket) : Prop :=
  ∃ markets, Holds (fun pair => IsMarket env pair.1 pair.2) (eventPairs events) markets ∧
    kept = markets.filter fun m => evaluateMarket m config now = .keep

/-- The market a lookup's answer holds: of its first row, without an event. -/
def LookedUp (env : PyEnv) (data : Json) (m : ListedMarket) : Prop :=
  ∃ raw, Readable env data ∧ data.truthy ∧ data.firstRow = .obj raw ∧ ¬ NormalizeRaises env raw [] ∧
    IsMarket env raw [] m

/-- What the lookups of the holdings hold that are not among `kept`. -/
def Synced (env : PyEnv) (a : GammaAnswers) (kept : List ListedMarket) (positions : List String)
    (synced : List ListedMarket) : Prop :=
  Holds (fun id => LookedUp env (countedAnswer env (a.market id).1 (a.market id).2))
    (positions.eraseDups.filter fun id => kept.all (·.marketId ≠ id)) synced

theorem holds_filterMap {α : Type} {Is : α → ListedMarket → Prop} {f : α → Option ListedMarket} {xs : List α}
    (hf : ∀ x ∈ xs, ∀ m, f x = some m ↔ Is x m) : Holds Is xs (xs.filterMap f) := by
  induction xs with
  | nil => exact .nil
  | cons x xs ih =>
    have hx := hf x List.mem_cons_self
    have hrest := ih fun y hy => hf y (List.mem_cons_of_mem _ hy)
    cases h : f x with
    | none =>
      rw [List.filterMap_cons_none h]
      refine .malformed (fun m hm => ?_) hrest
      rw [(hx m).mpr hm] at h
      cases h
    | some m =>
      rw [List.filterMap_cons_some h]
      exact .market ((hx m).mp h) hrest

/-- A lookup finds the market its answer holds; one that raises finds none. -/
theorem fetched_eq_some {env : PyEnv} {a : GammaAnswers} {id : String} {m : ListedMarket} :
    a.fetched env id = some m ↔ LookedUp env (countedAnswer env (a.market id).1 (a.market id).2) m := by
  unfold GammaAnswers.fetched fetchMarketById LookedUp
  by_cases hread : Readable env (countedAnswer env (a.market id).1 (a.market id).2)
  · rw [getJson_of_readable hread]
    dsimp only
    by_cases htruthy : (countedAnswer env (a.market id).1 (a.market id).2).truthy
    · simp only [htruthy, Bool.not_true, Bool.false_eq_true, if_false]
      cases hrow : (countedAnswer env (a.market id).1 (a.market id).2).firstRow with
      | obj raw =>
        by_cases hraises : NormalizeRaises env raw []
        · obtain ⟨e, he⟩ := normalizeGammaMarket_fails.mpr hraises
          simp [he, Except.toOption, hraises]
        · have hlisted := @listedOf_eq_some env (raw, []) hraises m
          simpa [hread, hraises, listedOf] using hlisted
      | _ => simp
    · simp [htruthy]
  · obtain ⟨e, he⟩ := getJson_of_not_readable hread
    simp [he, hread]

theorem normalizePairs_fails {env : PyEnv} {pairs : List EventMarketPair} :
    Fails (normalizePairs env pairs) ↔ ∃ pair ∈ pairs, NormalizeRaises env pair.1 pair.2 := by
  unfold normalizePairs
  rw [fails_bind_congr (q := False) fails_mapM fun _ => iff_of_false fails_pure id, or_false]
  simp only [normalizeGammaMarket_fails]

/-- What normalizing some pairs yields is what they hold. -/
theorem normalizePairs_holds {env : PyEnv} {pairs : List EventMarketPair} {markets : List ListedMarket}
    (h : normalizePairs env pairs = .ok markets) :
    Holds (fun pair => IsMarket env pair.1 pair.2) pairs markets := by
  have hpairs : ∀ pair ∈ pairs, ¬ NormalizeRaises env pair.1 pair.2 := fun pair hpair hraises =>
    not_fails.mpr ⟨markets, h⟩ (normalizePairs_fails.mpr ⟨pair, hpair, hraises⟩)
  obtain ⟨rows, hrows, hmarkets⟩ := except_bind_ok h
  have hlisted : markets = pairs.filterMap (listedOf env) := by
    rw [← Except.ok.inj hmarkets]
    exact filterMap_of_mapM hrows
  rw [hlisted]
  exact holds_filterMap fun pair hpair _ => listedOf_eq_some (hpairs pair hpair)

theorem union_catalog (s : MarketStore) (markets : List ListedMarket) (id : String) :
    (s.union markets).catalog id = (s.catalog id).or (markets.find? (·.marketId = id)) := by
  unfold MarketStore.union
  induction markets generalizing s with
  | nil => simp
  | cons m markets ih =>
    rw [List.foldl_cons, ih, List.find?_cons]
    by_cases hid : m.marketId = id
    · subst hid
      cases hm : s.catalog m.marketId <;> simp [hm]
    · have hne : id ≠ m.marketId := Ne.symm hid
      by_cases hm : (s.catalog m.marketId).isSome <;> simp [hm, hid, Function.update_of_ne hne]

/-- Lookups that do not raise union what they find. -/
theorem syncMissing_ok (fetched : String → Option ListedMarket) (s : MarketStore) (missing : List String) :
    (syncMissing (fun id => .ok (fetched id)) s missing).raised = none ∧
      (syncMissing (fun id => .ok (fetched id)) s missing).store = s.union (missing.filterMap fetched) := by
  induction missing generalizing s with
  | nil => exact ⟨rfl, rfl⟩
  | cons id missing ih =>
    cases hid : fetched id with
    | none =>
      obtain ⟨hraised, hstore⟩ := ih s
      simp only [syncMissing, hid, List.filterMap_cons]
      exact ⟨hraised, hstore⟩
    | some m =>
      obtain ⟨hraised, hstore⟩ := ih (s.union [m])
      simp only [syncMissing, hid, List.filterMap_cons]
      exact ⟨hraised, hstore⟩

theorem missingIds_replace {s : MarketStore} {kept : List ListedMarket} {summary : PollSummary}
    (positions : List String) :
    missingIds (s.replace kept summary) positions =
      positions.eraseDups.filter fun id => kept.all (·.marketId ≠ id) := by
  unfold missingIds
  congr 1
  funext id
  have hlists : ((s.replace kept summary).catalog id).isSome = kept.any (·.marketId = id) := by
    rw [Bool.eq_iff_iff, List.any_eq_true]
    simp only [decide_eq_true_eq]
    exact lists_replace
  rw [← Option.not_isSome, hlists, List.not_any_eq_all_not]
  simp

/-- The catalog after the sync of a poll on these answers. -/
theorem syncHoldingsOnce_ok {env : PyEnv} {s : MarketStore} {a : GammaAnswers} {now ts : ℚ}
    {positions : Option (List String)} :
    (syncHoldingsOnce (a.poll env now ts positions) s).raised = none ∧
      ∀ id, (syncHoldingsOnce (a.poll env now ts positions) s).store.catalog id =
        (s.catalog id).or (((missingIds s (positions.getD [])).filterMap (a.fetched env)).find?
          (·.marketId = id)) := by
  unfold syncHoldingsOnce GammaAnswers.poll
  cases positions with
  | none => simp [missingIds]
  | some positions =>
    obtain ⟨hraised, hstore⟩ := syncMissing_ok (a.fetched env) s (missingIds s positions)
    refine ⟨hraised, fun id => ?_⟩
    dsimp only
    rw [hstore, union_catalog]
    rfl

/-- The sync of a poll whose markets normalize starts from what the filter kept. -/
theorem pollOnce_sync {env : PyEnv} {config : MarketFilterConfig} {s : MarketStore} {p : Poll}
    {pairs : List EventMarketPair} {markets : List ListedMarket} (hpairs : p.pairs = .ok pairs)
    (hmarkets : normalizePairs env pairs = .ok markets) :
    ∃ summary, (pollOnce env config s p).raised =
        (syncHoldingsOnce p (s.replace (filterMarkets markets config p.now).kept summary)).raised ∧
      (pollOnce env config s p).store.catalog =
        (syncHoldingsOnce p (s.replace (filterMarkets markets config p.now).kept summary)).store.catalog := by
  refine ⟨{
    ts := p.ts
    fetched := pairs.length
    kept := (filterMarkets markets config p.now).kept.length
    reasonCounts := (filterMarkets markets config p.now).reasonCounts }, ?_⟩
  unfold pollOnce
  simp only [hpairs, hmarkets]
  split_ifs
  · exact ⟨rfl, rfl⟩
  · exact ⟨rfl, rfl⟩

/-- What a poll on these answers should come to: no exception, and a catalog of
exactly the well-formed markets that pass the filter and the synced holdings. -/
structure PollTolerates (env : PyEnv) (config : MarketFilterConfig) (s : MarketStore) (a : GammaAnswers)
    (now ts : ℚ) (positions : Option (List String)) : Prop where
  goesOn : (pollOnce env config s (a.poll env now ts positions)).raised = none
  catalog : ∃ kept synced, Kept env config now (a.eventsAnswer env) kept ∧
    Synced env a kept (positions.getD []) synced ∧
    ∀ id, (pollOnce env config s (a.poll env now ts positions)).store.catalog id =
      (kept.reverse.find? (·.marketId = id)).or (synced.find? (·.marketId = id))

theorem pollTolerates_iff {env : PyEnv} {config : MarketFilterConfig} {s : MarketStore} {a : GammaAnswers}
    {now ts : ℚ} {positions : Option (List String)} :
    PollTolerates env config s a now ts positions ↔
      Readable env (a.eventsAnswer env) ∧
        ∀ pair ∈ eventPairs (a.eventsAnswer env), ¬ NormalizeRaises env pair.1 pair.2 := by
  have hp : (a.poll env now ts positions).pairs =
    (getJson env a.events.1 a.events.2).map eventPairs := rfl
  constructor
  · intro h
    have hgoes := h.goesOn
    unfold pollOnce at hgoes
    by_cases hread : Readable env (a.eventsAnswer env)
    · refine ⟨hread, fun pair hpair hraises => ?_⟩
      obtain ⟨e, he⟩ := normalizePairs_fails.mpr ⟨pair, hpair, hraises⟩
      rw [getJson_of_readable hread] at hp
      simp only [hp, Except.map] at hgoes
      rw [GammaAnswers.eventsAnswer] at he
      simp [he] at hgoes
    · obtain ⟨e, he⟩ := getJson_of_not_readable hread
      rw [he] at hp
      simp [hp, Except.map] at hgoes
  · rintro ⟨hread, hpairs⟩
    rw [getJson_of_readable hread] at hp
    obtain ⟨markets, hmarkets⟩ := not_fails.mp fun h => by
      obtain ⟨pair, hpair, hraises⟩ := normalizePairs_fails.mp h
      exact hpairs pair hpair hraises
    obtain ⟨summary, hraised, hcatalog⟩ := @pollOnce_sync env config s _ _ _ hp hmarkets
    set kept := (filterMarkets markets config (a.poll env now ts positions).now).kept with hkept
    obtain ⟨hsync, hsynced⟩ := @syncHoldingsOnce_ok env (s.replace kept summary) a now ts positions
    refine ⟨hraised.trans hsync, kept, _, ⟨markets, normalizePairs_holds hmarkets, ?_⟩,
      holds_filterMap fun id _ m => fetched_eq_some, fun id => ?_⟩
    · rw [hkept, filterMarkets_kept]
      rfl
    · rw [hcatalog, hsynced, missingIds_replace]
      rfl

/-- What a fetch on these answers should come to: the well-formed levels of both
sides, best first, as far as the depth. -/
def BookTolerates (env : PyEnv) (first second : Json) (tokenId : String) (now : ℚ) : Prop :=
  ∃ book, fetchBook env first second tokenId now = .ok book ∧ book.tokenId = tokenId ∧
    IsSide (Dict.get (countedAnswer env first second).dictOrEmpty "bids") true bookDepth book.bids ∧
    IsSide (Dict.get (countedAnswer env first second).dictOrEmpty "asks") false bookDepth book.asks

theorem bookTolerates_iff {env : PyEnv} {first second : Json} {tokenId : String} {now : ℚ} :
    BookTolerates env first second tokenId now ↔
      Readable env (countedAnswer env first second) ∧
        ¬ BookRaises (countedAnswer env first second).dictOrEmpty := by
  unfold BookTolerates fetchBook
  constructor
  · rintro ⟨book, hbook, -⟩
    obtain ⟨raw, hraw, hparsed⟩ := except_bind_ok hbook
    have hread : Readable env (countedAnswer env first second) := by
      by_contra hread
      exact not_fails.mpr ⟨raw, hraw⟩ (getJson_of_not_readable hread)
    rw [getJson_of_readable hread] at hraw
    obtain rfl := Except.ok.inj hraw
    exact ⟨hread, fun hraises => not_fails.mpr ⟨book, hparsed⟩ (parseClobBook_fails.mpr hraises)⟩
  · rintro ⟨hread, hraises⟩
    obtain ⟨book, hbook⟩ := not_fails.mp (mt parseClobBook_fails.mp hraises)
    refine ⟨book, ?_, parseClobBook_ok hbook⟩
    rw [getJson_of_readable hread]
    exact hbook

/-- What settling some positions leaves of a tick: a decision on each of them, in
their order. -/
structure DecidedOn (held : List HeldPosition) (t t' : SettlementTick) : Prop where
  log : ∃ ds, t'.log = t.log ++ ds ∧ ds.map SettlementDecision.positionId = held.map HeldPosition.positionId
  processed : t'.processed = t.processed
  fetchError : t'.fetchError = t.fetchError

theorem DecidedOn.refl (t : SettlementTick) : DecidedOn [] t t := ⟨⟨[], by simp⟩, rfl, rfl⟩

theorem DecidedOn.trans {held held' : List HeldPosition} {t t' t'' : SettlementTick} (h : DecidedOn held t t')
    (h' : DecidedOn held' t' t'') : DecidedOn (held ++ held') t t'' := by
  obtain ⟨ds, hlog, hids⟩ := h.log
  obtain ⟨ds', hlog', hids'⟩ := h'.log
  refine ⟨⟨ds ++ ds', ?_, ?_⟩, h'.processed.trans h.processed, h'.fetchError.trans h.fetchError⟩
  · rw [hlog', hlog, List.append_assoc]
  · rw [List.map_append, List.map_append, hids, hids']

theorem decided_record {held : HeldPosition} {d : SettlementDecision} (t : SettlementTick)
    (h : d.positionId = held.positionId) : DecidedOn [held] t (t.record d) :=
  ⟨⟨[d], rfl, by simp [h]⟩, rfl, rfl⟩

/-- One record for each of the positions. -/
theorem decided_foldl {f : HeldPosition → SettlementDecision} (h : ∀ held, (f held).positionId = held.positionId)
    (held : List HeldPosition) (t : SettlementTick) :
    DecidedOn held t (held.foldl (fun t x => t.record (f x)) t) := by
  induction held generalizing t with
  | nil => exact .refl t
  | cons x held ih => exact (decided_record t (h x)).trans (ih _)

/-- A settled row is still there to read its gain back from. -/
theorem realizedGain_of_close {db db' : Db} {i : ℕ} {a : CloseArgs} {row : PositionRow} {price qty fee : ℚ}
    (h : db.closePosition i a = .ok (row, db')) : ∃ gain, db'.realizedGain i price qty fee = .ok gain := by
  obtain ⟨pos, hdisposal, rfl⟩ := closePosition_ok h
  have hrow := hdisposal.get rfl hdisposal.found
  exact ⟨_, by rw [Db.realizedGain, hrow]⟩

/-- What settling one position makes of a tick: an entry that reports no close, or a close
at the price of the position's side and the gain read back of the quantity it was read with. -/
inductive Settles (prices : ℚ × ℚ) (ts : ℚ) (t : SettlementTick) (held : HeldPosition) : SettlementTick → Prop
  | left {d : SettlementDecision} (named : d.positionId = held.positionId) (notOk : d.verdict ≠ .ok) :
      Settles prices ts t held (t.record d)
  | closed {d : SettlementDecision} {price gain : ℚ} {row : PositionRow} {db : Db}
      (priced : settlementPriceForSide prices held.side = some price)
      (close : t.db.closePosition held.positionId (settlementClose price ts) = .ok (row, db))
      (gained : db.realizedGain held.positionId price held.qty 0 = .ok gain)
      (named : d.positionId = held.positionId) (ok : d.verdict = .ok) (pnl : d.realizedPnl = some gain) :
      Settles prices ts t held ({ t with db := db }.record d)

theorem settlePosition_settles (env : SettlementEnv) (prices : ℚ × ℚ) (ts : ℚ) (t : SettlementTick)
    (held : HeldPosition) : ∃ t', settlePosition env prices ts t held = .ok t' ∧ Settles prices ts t held t' := by
  unfold settlePosition
  split_ifs
  · exact ⟨_, rfl, .left rfl SettlementVerdict.noConfusion⟩
  · cases hprice : settlementPriceForSide prices held.side with
    | none => exact ⟨_, rfl, .left rfl SettlementVerdict.noConfusion⟩
    | some price =>
      cases hclose : t.db.closePosition held.positionId (settlementClose price ts) with
      | error e =>
        simp only [hclose]
        exact ⟨_, rfl, .left rfl SettlementVerdict.noConfusion⟩
      | ok closed =>
        obtain ⟨row, db⟩ := closed
        obtain ⟨gain, hgain⟩ := @realizedGain_of_close _ _ _ _ _ price held.qty 0 hclose
        simp only [hclose, hgain]
        exact ⟨_, rfl, .closed hprice hclose hgain rfl rfl rfl⟩

theorem settles_of_ok {env : SettlementEnv} {prices : ℚ × ℚ} {ts : ℚ} {t t' : SettlementTick} {held : HeldPosition}
    (h : settlePosition env prices ts t held = .ok t') : Settles prices ts t held t' := by
  obtain ⟨t'', hok, hsettles⟩ := settlePosition_settles env prices ts t held
  rwa [← Except.ok.inj (hok.symm.trans h)]

theorem Settles.decided {prices : ℚ × ℚ} {ts : ℚ} {t t' : SettlementTick} {held : HeldPosition}
    (h : Settles prices ts t held t') : DecidedOn [held] t t' := by
  cases h with
  | left named _ => exact decided_record t named
  | closed _ _ _ named _ _ => exact ⟨⟨[_], rfl, by simp [named]⟩, rfl, rfl⟩

theorem settlePositions_decided (env : SettlementEnv) (outcomePrices : ℚ × ℚ) (ts : ℚ)
    (held : List HeldPosition) (t : SettlementTick) :
    ∃ t', held.foldlM (settlePosition env outcomePrices ts) t = .ok t' ∧ DecidedOn held t t' := by
  induction held generalizing t with
  | nil => exact ⟨t, rfl, .refl t⟩
  | cons x held ih =>
    obtain ⟨t', hx, hsettles⟩ := settlePosition_settles env outcomePrices ts t x
    obtain ⟨t'', hrest, hdecided⟩ := ih t'
    refine ⟨t'', ?_, hsettles.decided.trans hdecided⟩
    rw [List.foldlM_cons, hx]
    exact hrest

/-- A market that normalizes is processed: a decision on each of its positions. -/
theorem processMarket_decided {env : SettlementEnv} {raw : Dict} {market : Option ListedMarket}
    (h : normalizeGammaMarket env.toPyEnv raw [] = .ok market) (t : SettlementTick)
    (held : List HeldPosition) :
    ∃ t', DecidedOn held t t' ∧
      processMarket env t raw held = .ok { t' with processed := t.processed ++ [raw] } := by
  obtain ⟨t', hdecided, hok⟩ : ∃ t', DecidedOn held { t with reads := t.reads + 1 } t' ∧
      processMarket env t raw held = .ok { t' with processed := t'.processed ++ [raw] } := by
    unfold processMarket
    rw [h]
    cases market with
    | none =>
      refine ⟨_, ?_, rfl⟩
      exact decided_foldl (fun held => rfl) held _
    | some market =>
      by_cases hclosed : market.closed
      · cases hprices : market.outcomePrices with
        | none =>
          simp only [bind, Except.bind, hclosed, hprices]
          refine ⟨_, ?_, rfl⟩
          exact decided_foldl (fun held => rfl) held _
        | some outcomePrices =>
          obtain ⟨t', hfold, hdecided⟩ := settlePositions_decided env outcomePrices (env.clock t.reads) held
            { t with reads := t.reads + 1 }
          refine ⟨t', hdecided, ?_⟩
          simp [bind, Except.bind, hclosed, hprices, hfold]
          rfl
      · simp only [bind, Except.bind, hclosed]
        refine ⟨_, ?_, rfl⟩
        exact decided_foldl (fun held => rfl) held _
  refine ⟨t', ⟨hdecided.log, hdecided.processed, hdecided.fetchError⟩, ?_⟩
  rw [hok, hdecided.processed]

theorem processMarket_fails {env : SettlementEnv} {t : SettlementTick} {raw : Dict}
    {held : List HeldPosition} :
    Fails (processMarket env t raw held) ↔ NormalizeRaises env.toPyEnv raw [] := by
  rw [← normalizeGammaMarket_fails]
  cases h : normalizeGammaMarket env.toPyEnv raw [] with
  | error e => simp [processMarket, h, fails_bind]
  | ok market =>
    obtain ⟨t', -, hok⟩ := processMarket_decided h t held
    simp [hok]

/-- What walking some returned rows leaves of a tick. -/
structure Settled (env : PyEnv) (opens : List HeldPosition) (rows : List Dict) (t t' : SettlementTick) :
    Prop where
  processed : t'.processed = t.processed ++ rows.filter fun row => (rowConditionId env row).isSome
  fetchError : t'.fetchError = t.fetchError
  log : t.log <+: t'.log
  decided : ∀ row ∈ rows, ∀ held ∈ opens, rowConditionId env row = some held.conditionId →
    ∃ d ∈ t'.log, d.positionId = held.positionId

theorem DecidedOn.log_prefix {held : List HeldPosition} {t t' : SettlementTick} (h : DecidedOn held t t') :
    t.log <+: t'.log := by
  obtain ⟨ds, hlog, -⟩ := h.log
  exact hlog ▸ List.prefix_append _ _

theorem DecidedOn.exists_decision {held : List HeldPosition} {t t' : SettlementTick} (h : DecidedOn held t t')
    {x : HeldPosition} (hx : x ∈ held) : ∃ d ∈ t'.log, d.positionId = x.positionId := by
  obtain ⟨ds, hlog, hids⟩ := h.log
  have hid : x.positionId ∈ ds.map SettlementDecision.positionId := hids ▸ List.mem_map_of_mem hx
  obtain ⟨d, hd, hpos⟩ := List.mem_map.mp hid
  exact ⟨d, hlog ▸ List.mem_append_right _ hd, hpos⟩

theorem settleRow_fails {env : SettlementEnv} {opens : List HeldPosition} {t : SettlementTick} {row : Dict} :
    Fails (settleRow env opens t row) ↔
      (rowConditionId env.toPyEnv row).isSome ∧ NormalizeRaises env.toPyEnv row [] := by
  unfold settleRow
  cases rowConditionId env.toPyEnv row with
  | none => simp
  | some cid => simp [processMarket_fails]

theorem settleRows_fail {env : SettlementEnv} {opens : List HeldPosition} {rows : List Dict}
    {t : SettlementTick} :
    Fails (rows.foldlM (settleRow env opens) t) ↔
      ∃ row ∈ rows, (rowConditionId env.toPyEnv row).isSome ∧ NormalizeRaises env.toPyEnv row [] :=
  fails_foldlM (f := settleRow env opens)
    (q := fun row => (rowConditionId env.toPyEnv row).isSome ∧ NormalizeRaises env.toPyEnv row [])
    fun _ _ => settleRow_fails

theorem settleRow_settled {env : SettlementEnv} {opens : List HeldPosition} {t t' : SettlementTick}
    {row : Dict} (h : settleRow env opens t row = .ok t') : Settled env.toPyEnv opens [row] t t' := by
  unfold settleRow at h
  cases hcid : rowConditionId env.toPyEnv row with
  | none =>
    rw [hcid] at h
    obtain rfl := Except.ok.inj h
    refine ⟨by simp [hcid], rfl, List.prefix_refl _, fun r hr held _ heq => ?_⟩
    rw [List.mem_singleton.mp hr, hcid] at heq
    cases heq
  | some cid =>
    simp only [hcid] at h
    have hraises := mt processMarket_fails.mpr (not_fails.mpr ⟨t', h⟩)
    obtain ⟨market, hmarket⟩ := not_fails.mp (mt normalizeGammaMarket_fails.mp hraises)
    obtain ⟨t₁, hdecided, hok⟩ := processMarket_decided hmarket t (opens.filter fun h => h.conditionId = cid)
    rw [hok] at h
    obtain rfl := Except.ok.inj h
    refine ⟨by simp [hcid], hdecided.fetchError, hdecided.log_prefix, fun r hr held hheld heq => ?_⟩
    rw [List.mem_singleton.mp hr, hcid] at heq
    exact hdecided.exists_decision (List.mem_filter.mpr ⟨hheld, by simpa using (Option.some.inj heq).symm⟩)

theorem settleRows_settled {env : SettlementEnv} {opens : List HeldPosition} {rows : List Dict}
    {t t' : SettlementTick} (h : rows.foldlM (settleRow env opens) t = .ok t') :
    Settled env.toPyEnv opens rows t t' := by
  induction rows generalizing t with
  | nil =>
    obtain rfl : t = t' := Except.ok.inj h
    exact ⟨by simp, rfl, List.prefix_refl _, by simp⟩
  | cons row rows ih =>
    rw [List.foldlM_cons] at h
    obtain ⟨t₁, hrow, hrows⟩ := except_bind_ok h
    have hfirst := settleRow_settled hrow
    have hrest := ih hrows
    refine ⟨?_, hrest.fetchError.trans hfirst.fetchError, hfirst.log.trans hrest.log, ?_⟩
    · rw [hrest.processed, hfirst.processed, List.append_assoc, ← List.filter_append, List.singleton_append]
    · intro r hr held hheld heq
      rcases List.mem_cons.mp hr with rfl | hr
      · obtain ⟨d, hd, hid⟩ := hfirst.decided r List.mem_cons_self held hheld heq
        exact ⟨d, hrest.log.subset hd, hid⟩
      · exact hrest.decided r hr held hheld heq

/-- The positions whose market was not returned are decided on as well. -/
theorem unreturned_decided {ts : ℚ} {returned : List String} (groups : List (String × List HeldPosition))
    (t : SettlementTick) :
    ∃ held, DecidedOn held t (groups.foldl (fun t group =>
      if group.1 ∈ returned then t
      else group.2.foldl (fun t h => t.record { settlementEntry h ts .skip with
        reason := some "market_not_returned_by_gamma" }) t) t) := by
  induction groups generalizing t with
  | nil => exact ⟨[], .refl t⟩
  | cons group groups ih =>
    rw [List.foldl_cons]
    split_ifs
    · exact ih t
    · have hgroup := decided_foldl (f := fun h => { settlementEntry h ts .skip with
        reason := some "market_not_returned_by_gamma" }) (fun _ => rfl) group.2 t
      obtain ⟨held, hheld⟩ := ih _
      exact ⟨_, hgroup.trans hheld⟩

section tick

variable {env : SettlementEnv} {db : Db} {first second : Json}

theorem settlementTickOnce_unreadable (hopen : db.getOpenPositions ≠ [])
    (hread : ¬ Readable env.toPyEnv (countedAnswer env.toPyEnv first second)) :
    ∃ t, settlementTickOnce env db first second = .ok t ∧ t.fetchError ≠ none := by
  obtain ⟨e, he⟩ := getJson_of_not_readable hread
  unfold settlementTickOnce fetchMarketsByConditionId
  simp only [if_neg hopen, he, Except.map]
  exact ⟨_, rfl, Option.some_ne_none e⟩

/-- A tick with readable rows fails with the walk over them. -/
theorem settlementTickOnce_fails (hopen : db.getOpenPositions ≠ [])
    (hread : Readable env.toPyEnv (countedAnswer env.toPyEnv first second)) :
    Fails (settlementTickOnce env db first second) ↔
      ∃ row ∈ marketRows (countedAnswer env.toPyEnv first second),
        (rowConditionId env.toPyEnv row).isSome ∧ NormalizeRaises env.toPyEnv row [] := by
  unfold settlementTickOnce fetchMarketsByConditionId
  simp only [if_neg hopen, getJson_of_readable hread, Except.map]
  rw [fails_bind_congr (q := False) settleRows_fail fun _ => iff_of_false fails_pure id, or_false]

/-- A tick that gets through its rows leaves what walking them leaves, and the
decisions on the positions whose market was not among them. -/
theorem settlementTickOnce_ok {t : SettlementTick} (hopen : db.getOpenPositions ≠ [])
    (hread : Readable env.toPyEnv (countedAnswer env.toPyEnv first second))
    (h : settlementTickOnce env db first second = .ok t) :
    ∃ start, Settled env.toPyEnv db.getOpenPositions (marketRows (countedAnswer env.toPyEnv first second))
      start t ∧ start.fetchError = none := by
  unfold settlementTickOnce fetchMarketsByConditionId at h
  simp only [if_neg hopen, getJson_of_readable hread, Except.map] at h
  obtain ⟨t₁, hrows, h⟩ := except_bind_ok h
  have hsettled := settleRows_settled hrows
  obtain ⟨held, hrest⟩ := @unreturned_decided (env.clock t₁.reads)
    ((marketRows (countedAnswer env.toPyEnv first second)).filterMap (rowConditionId env.toPyEnv))
    (byConditionId db.getOpenPositions) { t₁ with reads := t₁.reads + 1 }
  obtain rfl := Except.ok.inj h
  refine ⟨_, ⟨hrest.processed.trans hsettled.processed, hrest.fetchError.trans hsettled.fetchError,
    hsettled.log.trans hrest.log_prefix, fun row hrow x hx heq => ?_⟩, rfl⟩
  obtain ⟨d, hd, hid⟩ := hsettled.decided row hrow x hx heq
  exact ⟨d, hrest.log_prefix.subset hd, hid⟩

end tick

/-- What a tick on these answers should come to: the fetch succeeds and every
well-formed market that is returned is processed, with a decision on each of its positions. -/
def SettlementTolerates (env : SettlementEnv) (db : Db) (first second : Json) : Prop :=
  ∃ t, settlementTickOnce env db first second = .ok t ∧ t.fetchError = none ∧
    (db.getOpenPositions ≠ [] → ∀ row ∈ marketRows (countedAnswer env.toPyEnv first second),
      (rowConditionId env.toPyEnv row).isSome → ¬ NormalizeRaises env.toPyEnv row [] →
        row ∈ t.processed ∧ ∀ held ∈ db.getOpenPositions,
          rowConditionId env.toPyEnv row = some held.conditionId → ∃ d ∈ t.log, d.positionId = held.positionId)

theorem settlementTolerates_iff {env : SettlementEnv} {db : Db} {first second : Json} :
    SettlementTolerates env db first second ↔
      db.getOpenPositions = [] ∨ Readable env.toPyEnv (countedAnswer env.toPyEnv first second) ∧
        ∀ row ∈ marketRows (countedAnswer env.toPyEnv first second),
          (rowConditionId env.toPyEnv row).isSome → ¬ NormalizeRaises env.toPyEnv row [] := by
  unfold SettlementTolerates
  by_cases hopen : db.getOpenPositions = []
  · simp [settlementTickOnce, hopen]
  · rw [or_iff_right hopen]
    constructor
    · rintro ⟨t, htick, hfetch, -⟩
      have hread : Readable env.toPyEnv (countedAnswer env.toPyEnv first second) := by
        by_contra hread
        obtain ⟨t', htick', hfetch'⟩ := settlementTickOnce_unreadable hopen hread
        obtain rfl := Except.ok.inj (htick.symm.trans htick')
        exact hfetch' hfetch
      refine ⟨hread, fun row hrow hcid hraises => not_fails.mpr ⟨t, htick⟩ ?_⟩
      exact (settlementTickOnce_fails hopen hread).mpr ⟨row, hrow, hcid, hraises⟩
    · rintro ⟨hread, hrows⟩
      obtain ⟨t, htick⟩ : ∃ t, settlementTickOnce env db first second = .ok t := by
        refine not_fails.mp fun hfails => ?_
        obtain ⟨row, hrow, hcid, hraises⟩ := (settlementTickOnce_fails hopen hread).mp hfails
        exact hrows row hrow hcid hraises
      obtain ⟨start, hsettled, hstart⟩ := settlementTickOnce_ok hopen hread htick
      refine ⟨t, htick, hsettled.fetchError.trans hstart, fun _ row hrow hcid _ => ⟨?_, ?_⟩⟩
      · rw [hsettled.processed]
        exact List.mem_append_right _ (List.mem_filter.mpr ⟨hrow, hcid⟩)
      · exact fun x hx heq => hsettled.decided row hrow x hx heq

/-- Whatever the endpoints answer: the poll goes on, and its catalog is exactly
the well-formed markets that pass the filter and the synced holdings, exactly where
the events can be decoded and none of their markets raises; the fetched book is the
best-first sort of its well-formed levels exactly where it can be decoded and neither its
timestamp nor a price or size is an integer no float holds; and the settlement tick
processes every well-formed market exactly where it holds no position, or the rows can be
decoded and none that names a condition raises. -/
theorem malformed_data_tolerated_iff (env : SettlementEnv) (config : MarketFilterConfig) (s : MarketStore)
    (a : GammaAnswers) (now ts : ℚ) (positions : Option (List String)) (first second : Json)
    (tokenId : String) (db : Db) :
    (PollTolerates env.toPyEnv config s a now ts positions ↔
      Readable env.toPyEnv (a.eventsAnswer env.toPyEnv) ∧
        ∀ pair ∈ eventPairs (a.eventsAnswer env.toPyEnv), ¬ NormalizeRaises env.toPyEnv pair.1 pair.2) ∧
    (BookTolerates env.toPyEnv first second tokenId now ↔
      Readable env.toPyEnv (countedAnswer env.toPyEnv first second) ∧
        ¬ BookRaises (countedAnswer env.toPyEnv first second).dictOrEmpty) ∧
    (SettlementTolerates env db first second ↔
      db.getOpenPositions = [] ∨ Readable env.toPyEnv (countedAnswer env.toPyEnv first second) ∧
        ∀ row ∈ marketRows (countedAnswer env.toPyEnv first second),
          (rowConditionId env.toPyEnv row).isSome → ¬ NormalizeRaises env.toPyEnv row []) :=
  ⟨pollTolerates_iff, bookTolerates_iff, settlementTolerates_iff⟩

def raisedBy {α : Type} : Except PyErr α → Option PyErr
  | .error e => some e
  | .ok _ => none

/-- Every date is far ahead, and no exit is in flight. -/
def sampleSettlementEnv : SettlementEnv where
  repr := fun _ => ""
  fromisoformat := fun _ => some 1000000
  maxDepth := 100
  excText := fun _ => ""
  isClosing := fun _ => false
  clock := fun _ => 0

def goodRaw : Dict :=
  [("id", .str "m1"), ("conditionId", .str "0xc1"), ("clobTokenIds", .str "[\"t1\", \"t2\"]"),
    ("endDate", .str "2030-01-01"), ("feesEnabled", .bool false), ("closed", .bool false),
    ("acceptingOrders", .bool true), ("enableOrderBook", .bool true), ("volume24hr", .int 5000),
    ("liquidityNum", .str "5000"), ("lastTradePrice", .float (.fin (1 / 2)))]

def eventOf (tags : Json) (market : Dict) : Json :=
  .obj [("id", .str "e1"), ("tags", tags), ("markets", .arr [.obj market])]

def tooLarge : Json := .int (10 ^ 400)

def hugeRaw : Dict :=
  [("id", .str "m2"), ("conditionId", .str "0xc2"), ("clobTokenIds", .arr [.str "t3"]), ("bestBid", tooLarge)]

def hugeBook : Json :=
  .obj [("bids", .arr [.obj [("price", .str "0.4"), ("size", .str "10")],
    .obj [("price", .str "0.3"), ("size", tooLarge)]])]

/-- The same document at both attempts, and no market found by its id. -/
def gammaSample (events : Json) : GammaAnswers := ⟨(events, events), fun _ => (.null, .null)⟩

def emptyCatalog : MarketStore := ⟨fun _ => none, none⟩

def samplePoll (events : Json) : PollRun :=
  pollOnce sampleSettlementEnv.toPyEnv defaultFilter emptyCatalog
    ((gammaSample events).poll sampleSettlementEnv.toPyEnv 0 0 none)

def nullTags : Json := .arr [eventOf (.arr []) goodRaw, eventOf .null goodRaw]

def hugeEvents : Json := .arr [eventOf (.arr []) goodRaw, eventOf (.arr []) hugeRaw]

def hugeRows : Json := .arr [.obj hugeRaw, .obj goodRaw]

/-- One event whose tags are null, or one market, level or row with an integer no
float holds: the poll leaves out the good market it lists by itself, and neither the
book nor the tick comes to an end. -/
theorem malformed_data_spreads :
    ((samplePoll (.arr [eventOf (.arr []) goodRaw])).store.catalog "m1").isSome ∧
    (samplePoll nullTags).raised = some .typeError ∧
    (samplePoll nullTags).store.catalog "m1" = none ∧
    ¬ PollTolerates sampleSettlementEnv.toPyEnv defaultFilter emptyCatalog (gammaSample nullTags) 0 0 none ∧
    (samplePoll hugeEvents).raised = some .overflowError ∧
    (samplePoll hugeEvents).store.catalog "m1" = none ∧
    ¬ PollTolerates sampleSettlementEnv.toPyEnv defaultFilter emptyCatalog (gammaSample hugeEvents) 0 0 none ∧
    raisedBy (fetchBook sampleSettlementEnv.toPyEnv hugeBook hugeBook "t1" 0) = some .overflowError ∧
    ¬ BookTolerates sampleSettlementEnv.toPyEnv hugeBook hugeBook "t1" 0 ∧
    raisedBy (settlementTickOnce sampleSettlementEnv (Db.empty.opened sampleOpen) hugeRows hugeRows) =
      some .overflowError ∧
    ¬ SettlementTolerates sampleSettlementEnv (Db.empty.opened sampleOpen) hugeRows hugeRows := by
  have hnull : (samplePoll nullTags).raised = some .typeError := by decide +kernel
  have hhuge : (samplePoll hugeEvents).raised = some .overflowError := by decide +kernel
  have hbook : raisedBy (fetchBook sampleSettlementEnv.toPyEnv hugeBook hugeBook "t1" 0) =
      some .overflowError := by decide +kernel
  have htick : raisedBy (settlementTickOnce sampleSettlementEnv (Db.empty.opened sampleOpen) hugeRows
      hugeRows) = some .overflowError := by decide +kernel
  refine ⟨by decide +kernel, hnull, by decide +kernel, ?_, hhuge, by decide +kernel, ?_, hbook, ?_, htick, ?_⟩
  · intro h
    exact Option.some_ne_none _ (hnull.symm.trans h.goesOn)
  · intro h
    exact Option.some_ne_none _ (hhuge.symm.trans h.goesOn)
  · rintro ⟨book, hok, -⟩
    rw [hok] at hbook
    cases hbook
  · rintro ⟨t, hok, -⟩
    rw [hok] at htick
    cases htick

end OpenPoly
