import OpenPoly.Lib.Run
import OpenPoly.Spec.Discovery

/-! Discovery polls and the markets of open positions: a poll rebuilds the catalog
from what its filter kept, and the holding sync only adds to that. -/

namespace OpenPoly

open Transition

variable {config : MarketFilterConfig} {now : ℚ}

theorem foldl_kept (markets : List ListedMarket) (report : FilterReport) :
    (markets.foldl (FilterReport.add config now) report).kept =
      report.kept ++ markets.filter fun m => evaluateMarket m config now = .keep := by
  induction markets generalizing report with
  | nil => simp
  | cons m markets ih =>
    rw [List.foldl_cons, ih]
    unfold FilterReport.add
    cases hm : evaluateMarket m config now <;> simp [hm]

theorem filterMarkets_kept (markets : List ListedMarket) :
    (filterMarkets markets config now).kept =
      markets.filter fun m => evaluateMarket m config now = .keep := by
  rw [filterMarkets, foldl_kept, List.nil_append]

def MarketStore.Lists (s : MarketStore) (id : String) : Prop := (s.catalog id).isSome

theorem lists_replace {s : MarketStore} {markets : List ListedMarket} {summary : PollSummary}
    {id : String} : (s.replace markets summary).Lists id ↔ ∃ m ∈ markets, m.marketId = id := by
  unfold MarketStore.Lists MarketStore.replace
  rw [List.find?_isSome]
  simp

/-- A listed market stays as it is. -/
theorem union_listed {s : MarketStore} {id : String} {m : ListedMarket} (h : s.catalog id = some m)
    (markets : List ListedMarket) : (s.union markets).catalog id = some m := by
  unfold MarketStore.union
  induction markets generalizing s with
  | nil => exact h
  | cons n markets ih =>
    rw [List.foldl_cons]
    apply ih
    split_ifs with hn
    · exact h
    · have hne : id ≠ n.marketId := by
        rintro rfl
        rw [h] at hn
        exact hn rfl
      simpa [Function.update_of_ne hne] using h

theorem MarketStore.Lists.union {s : MarketStore} {id : String} (h : s.Lists id)
    (markets : List ListedMarket) : (s.union markets).Lists id := by
  obtain ⟨m, hm⟩ := Option.isSome_iff_exists.mp h
  exact Option.isSome_iff_exists.mpr ⟨m, union_listed hm markets⟩

def PollRun.KeepsListed (run : PollRun) (id : String) : Prop :=
  (∀ catalog ∈ run.awaits, (catalog id).isSome) ∧ run.store.Lists id

/-- The holding sync only adds, and shows the catalog it starts from. -/
theorem syncMissing_keeps {lookup : String → Except PyErr (Option ListedMarket)} {s : MarketStore}
    {missing : List String} {id : String} :
    (syncMissing lookup s missing).KeepsListed id ↔ s.Lists id := by
  constructor
  · rintro ⟨hawaits, hstore⟩
    cases missing with
    | nil => exact hstore
    | cons x missing =>
      apply hawaits
      unfold syncMissing
      split <;> exact List.mem_cons_self
  · intro h
    induction missing generalizing s with
    | nil => exact ⟨fun catalog hc => (by cases hc), h⟩
    | cons x missing ih =>
      unfold syncMissing
      split
      · exact ⟨fun catalog hc => List.mem_singleton.mp hc ▸ h, h⟩
      · obtain ⟨hawaits, hstore⟩ := ih h
        exact ⟨List.forall_mem_cons.mpr ⟨h, hawaits⟩, hstore⟩
      · obtain ⟨hawaits, hstore⟩ := ih (h.union _)
        exact ⟨List.forall_mem_cons.mpr ⟨h, hawaits⟩, hstore⟩

theorem syncHoldingsOnce_keeps {p : Poll} {s : MarketStore} {id : String} :
    (syncHoldingsOnce p s).KeepsListed id ↔ s.Lists id := by
  unfold syncHoldingsOnce
  split
  · exact ⟨fun h => h.2, fun h => ⟨fun catalog hc => (by cases hc), h⟩⟩
  · exact syncMissing_keeps

/-- An await point where the id is listed and a new summary change nothing. -/
theorem keepsListed_cons {run : PollRun} {s : MarketStore} {id : String} (h : s.Lists id)
    (lastPoll : Option PollSummary) :
    ({ run with
      awaits := s.catalog :: run.awaits
      store := { run.store with lastPoll := lastPoll } } : PollRun).KeepsListed id ↔
        run.KeepsListed id := by
  constructor
  · rintro ⟨hawaits, hstore⟩
    exact ⟨(List.forall_mem_cons.mp hawaits).2, hstore⟩
  · rintro ⟨hawaits, hstore⟩
    exact ⟨List.forall_mem_cons.mpr ⟨h, hawaits⟩, hstore⟩

/-- A poll that fails in its fetch or in normalizing leaves the catalog alone;
one that gets through keeps exactly what its filter kept. -/
theorem pollOnce_keeps {env : PyEnv} {s : MarketStore} {p : Poll} {id : String} (h : s.Lists id) :
    (pollOnce env config s p).KeepsListed id ↔
      ∀ pairs markets, p.pairs = .ok pairs → normalizePairs env pairs = .ok markets →
        ∃ m ∈ markets, m.marketId = id ∧ evaluateMarket m config p.now = .keep := by
  have hraised : ∀ e, ({ awaits := [s.catalog], store := s, raised := some e } : PollRun).KeepsListed id :=
    fun e => ⟨fun catalog hc => List.mem_singleton.mp hc ▸ h, h⟩
  unfold pollOnce
  cases hp : p.pairs with
  | error e => exact ⟨fun _ pairs markets hpairs => (by cases hpairs), fun _ => hraised e⟩
  | ok pairs =>
    cases hn : normalizePairs env pairs with
    | error e =>
      simp only [hn]
      refine ⟨fun _ pairs' markets hpairs hmarkets => ?_, fun _ => hraised e⟩
      obtain rfl := Except.ok.inj hpairs
      rw [hn] at hmarkets
      cases hmarkets
    | ok markets =>
      have hkept : (∃ m ∈ (filterMarkets markets config p.now).kept, m.marketId = id) ↔
          ∀ pairs' markets', Except.ok (ε := PyErr) pairs = .ok pairs' →
            normalizePairs env pairs' = .ok markets' →
            ∃ m ∈ markets', m.marketId = id ∧ evaluateMarket m config p.now = .keep := by
        rw [filterMarkets_kept]
        constructor
        · rintro ⟨m, hm, hid⟩ pairs' markets' hpairs hmarkets
          obtain rfl := Except.ok.inj hpairs
          obtain rfl := Except.ok.inj (hn.symm.trans hmarkets)
          obtain ⟨hmem, hkeep⟩ := List.mem_filter.mp hm
          exact ⟨m, hmem, hid, by simpa using hkeep⟩
        · intro hall
          obtain ⟨m, hmem, hid, hkeep⟩ := hall pairs markets rfl hn
          exact ⟨m, List.mem_filter.mpr ⟨hmem, by simpa using hkeep⟩, hid⟩
      rw [← hkept, ← lists_replace, ← syncHoldingsOnce_keeps (p := p)]
      simp only [hn]
      split_ifs
      · exact keepsListed_cons h _
      · exact keepsListed_cons h _

/-- A poll and the markets that carry an open position while it runs. -/
structure HeldPoll where
  poll : Poll
  held : List String

/-- The catalog after these polls; one that raises is followed by the next. -/
def afterPolls (env : PyEnv) (config : MarketFilterConfig) (s : MarketStore) (polls : List HeldPoll) :
    MarketStore :=
  polls.foldl (fun s hp => (pollOnce env config s hp.poll).store) s

/-- The listed markets with an open position stay listed at every await point
and after the poll. -/
def HeldStayListed (env : PyEnv) (config : MarketFilterConfig) (s : MarketStore) (hp : HeldPoll) : Prop :=
  ∀ id ∈ hp.held, s.Lists id → (pollOnce env config s hp.poll).KeepsListed id

/-- If the poll's fetch succeeds and its markets normalize, every listed market
with an open position is among them and passes the filter. -/
def HeldRediscovered (env : PyEnv) (config : MarketFilterConfig) (s : MarketStore) (hp : HeldPoll) :
    Prop :=
  ∀ id ∈ hp.held, s.Lists id → ∀ pairs markets, hp.poll.pairs = .ok pairs →
    normalizePairs env pairs = .ok markets →
    ∃ m ∈ markets, m.marketId = id ∧ evaluateMarket m config hp.poll.now = .keep

theorem heldStayListed_iff {env : PyEnv} {s : MarketStore} {hp : HeldPoll} :
    HeldStayListed env config s hp ↔ HeldRediscovered env config s hp := by
  constructor
  · intro h id hid hs
    exact (pollOnce_keeps hs).mp (h id hid hs)
  · intro h id hid hs
    exact (pollOnce_keeps hs).mpr (h id hid hs)

/-- A market held through polls that all rediscover it is listed all along. -/
theorem listed_throughout {env : PyEnv} {s : MarketStore} {polls : List HeldPoll} {id : String}
    (hs : s.Lists id) (hheld : ∀ hp ∈ polls, id ∈ hp.held)
    (hcond : ∀ pre hp post, polls = pre ++ hp :: post →
      HeldRediscovered env config (afterPolls env config s pre) hp) :
    (afterPolls env config s polls).Lists id := by
  induction polls using List.reverseRecOn with
  | nil => exact hs
  | append_singleton polls hp ih =>
    have hbefore : (afterPolls env config s polls).Lists id := by
      refine ih (fun hp' hmem => hheld hp' (List.mem_append_left _ hmem)) fun pre hp' post heq => ?_
      exact hcond pre hp' (post ++ [hp]) (by rw [heq]; simp)
    have hlast := heldStayListed_iff.mpr (hcond polls hp [] rfl) id (hheld hp (by simp)) hbefore
    rw [afterPolls, List.foldl_append]
    exact hlast.2

/-- Over every sequence of polls, from any catalog: each of them keeps the listed
markets with an open position listed, at every await point and afterwards, exactly
where each that gets through its fetch rediscovers them; and a market held through
such a sequence is listed at its end. -/
theorem held_markets_stay_listed_iff (env : PyEnv) (config : MarketFilterConfig) (s : MarketStore)
    (polls : List HeldPoll) :
    ((∀ pre hp post, polls = pre ++ hp :: post →
        HeldStayListed env config (afterPolls env config s pre) hp) ↔
      ∀ pre hp post, polls = pre ++ hp :: post →
        HeldRediscovered env config (afterPolls env config s pre) hp) ∧
    ((∀ pre hp post, polls = pre ++ hp :: post →
        HeldRediscovered env config (afterPolls env config s pre) hp) →
      ∀ id, s.Lists id → (∀ hp ∈ polls, id ∈ hp.held) → (afterPolls env config s polls).Lists id) := by
  refine ⟨?_, fun hcond id hs hheld => listed_throughout hs hheld hcond⟩
  simp only [heldStayListed_iff]

def bareEnv : PyEnv := ⟨fun _ => "", fun _ => none, 100⟩

def defaultFilter : MarketFilterConfig := {}

def sampleListed : ListedMarket where
  marketId := "m1"
  conditionId := "0xc1"
  yesTokenId := "t1"
  noTokenId := some "t2"
  question := "q"
  slug := "s"
  endDate := none
  bestBid := none
  bestAsk := none
  spread := none
  lastTradePrice := none
  volume24h := 0
  liquidity := 0
  closed := false
  acceptingOrders := true
  enableOrderBook := true
  eventId := none
  eventTitle := none
  eventTags := []
  outcomePrices := none

def heldCatalog : MarketStore := ⟨fun id => if id = "m1" then some sampleListed else none, none⟩

def rankedOut (lookup : String → Except PyErr (Option ListedMarket)) : HeldPoll :=
  ⟨⟨.ok [], 0, 0, some ["m1"], lookup⟩, ["m1"]⟩

/-- While the lookup of the held market is out it is not listed, and where the
lookup finds nothing it stays so. -/
theorem ranked_out_market_unlisted :
    heldCatalog.Lists "m1" ∧
    ¬ HeldStayListed bareEnv defaultFilter heldCatalog (rankedOut fun _ => .ok (some sampleListed)) ∧
    ¬ HeldStayListed bareEnv defaultFilter heldCatalog (rankedOut fun _ => .ok none) ∧
    ¬ (pollOnce bareEnv defaultFilter heldCatalog (rankedOut fun _ => .ok none).poll).store.Lists "m1" := by
  have hlisted : heldCatalog.Lists "m1" := rfl
  have hlost : ∀ lookup, ¬ HeldRediscovered bareEnv defaultFilter heldCatalog (rankedOut lookup) := by
    intro lookup h
    obtain ⟨m, hm, -⟩ := h "m1" (by simp [rankedOut]) hlisted [] [] rfl rfl
    cases hm
  refine ⟨hlisted, mt heldStayListed_iff.mp (hlost _), mt heldStayListed_iff.mp (hlost _), ?_⟩
  intro h
  cases h

end OpenPoly
