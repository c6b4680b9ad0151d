import OpenPoly.Spec.JsonText
import OpenPoly.Spec.Sizing
import Mathlib.Data.List.Sort

/-! Market data off the wire: the payloads of the Gamma and CLOB endpoints, a
Gamma market normalized into the catalog's record, and a CLOB book. -/

namespace OpenPoly

/-- What the interpreter brings: the text of a float or container,
`datetime.fromisoformat` as UTC epoch seconds (`none` for its `ValueError`), and
how deep the decoder may nest. -/
structure PyEnv where
  repr : Json → String
  fromisoformat : String → Option ℚ
  maxDepth : ℕ

mutual

/-- Whether the decoder reads a document of this value, with `depth` containers
left to enter. -/
def Json.decodes : ℕ → Json → Except PyErr Unit
  | _, .int n => if 10 ^ maxIntDigits ≤ n.natAbs then .error .valueError else .ok ()
  | 0, .arr _ => .error recursionError
  | 0, .obj _ => .error recursionError
  | depth + 1, .arr xs => Json.decodesAll depth xs
  | depth + 1, .obj kvs => Json.decodesEntries depth kvs
  | _, _ => .ok ()

def Json.decodesAll : ℕ → List Json → Except PyErr Unit
  | _, [] => .ok ()
  | depth, x :: xs => do
    Json.decodes depth x
    Json.decodesAll depth xs

def Json.decodesEntries : ℕ → List (String × Json) → Except PyErr Unit
  | _, [] => .ok ()
  | depth, (_, x) :: kvs => do
    Json.decodes depth x
    Json.decodesEntries depth kvs

end

/-- `resp.json()` on a document of the value `payload`. -/
def responseJson (env : PyEnv) (payload : Json) : Except PyErr Json :=
  (payload.decodes env.maxDepth).map fun _ => payload

/-- `_get_json` where both attempts are answered with these documents; a
`ValueError` is retried once. -/
def getJson (env : PyEnv) (first second : Json) : Except PyErr Json :=
  match responseJson env first with
  | .error .valueError => responseJson env second
  | r => r

/-- `_to_float`: no number for a missing, boolean, unparseable or non-finite
value, else the double it is read as. Other exceptions of `float()` escape. -/
def toFloatOrNone (value : Json) : Except PyErr (Option ℚ) :=
  match value with
  | .null => .ok none
  | .bool _ => .ok none
  | value =>
    match pyFloat value with
    | .ok (.fin q) => .ok (some (nearestDouble q))
    | .ok _ => .ok none
    | .error .typeError => .ok none
    | .error .valueError => .ok none
    | .error e => .error e

/-- `_parse_json_array`: only a `JSONDecodeError` makes the string an empty array. -/
def parseJsonArray (env : PyEnv) (value : Json) : Except PyErr (List Json) :=
  match value with
  | .arr xs => .ok xs
  | .str s =>
    match jsonLoads env.maxDepth s with
    | .ok (.arr xs) => .ok xs
    | .ok _ => .ok []
    | .error e => if e = jsonDecodeError then .ok [] else .error e
  | _ => .ok []

/-- `a or b`. -/
def Json.orElse (a b : Json) : Json := if a.truthy then a else b

def parseIso (env : PyEnv) (value : Json) : Option ℚ :=
  match value with
  | .str s => if s = "" then none else env.fromisoformat (s.replace "Z" "+00:00")
  | _ => none

/-- `_taker_fee_rate`. -/
def rawTakerFeeRate (raw : Dict) : Except PyErr (Option ℚ) := do
  if raw.get "feesEnabled" matches .bool false then return some 0
  let rate ← match raw.get "feeSchedule" with
    | .obj schedule => toFloatOrNone (Dict.get schedule "rate")
    | _ => .ok none
  match rate with
  | some rate => if 0 ≤ rate then return some rate
  | none => pure ()
  let bps ← toFloatOrNone (raw.get "takerBaseFee")
  return bps.map (· / 10000)

def parseOutcomePrices (env : PyEnv) (value : Json) : Except PyErr (Option (ℚ × ℚ)) := do
  match ← parseJsonArray env value with
  | [x, y] =>
    let a ← toFloatOrNone x
    let b ← toFloatOrNone y
    return a.bind fun a => b.map fun b => (a, b)
  | _ => return none

/-- What `for t in tags` yields; the characters of a string and the keys of an
object are no dicts and give no tag. -/
def tagItems (tags : Json) : Except PyErr (List Json) :=
  match tags with
  | .arr xs => .ok xs
  | .str _ => .ok []
  | .obj _ => .ok []
  | _ => .error .typeError

def tagSlug (env : PyEnv) : Json → Option String
  | .obj t => if (Dict.get t "slug").truthy then some ((Dict.get t "slug").text env.repr) else none
  | _ => none

/-- The normalized market as discovery and settlement read it. -/
@[ext]
structure ListedMarket extends Market where
  question : String
  slug : String
  endDate : Option ℚ
  bestBid : Option ℚ
  bestAsk : Option ℚ
  spread : Option ℚ
  lastTradePrice : Option ℚ
  volume24h : ℚ
  liquidity : ℚ
  closed : Bool
  acceptingOrders : Bool
  enableOrderBook : Bool
  eventId : Option String
  eventTitle : Option String
  eventTags : List String
  outcomePrices : Option (ℚ × ℚ)
  deriving DecidableEq

def ListedMarket.mid (m : ListedMarket) : Option ℚ :=
  m.bestBid.bind fun bid => m.bestAsk.map fun ask => (bid + ask) / 2

def ListedMarket.referencePrice (m : ListedMarket) : Option ℚ :=
  m.mid.or m.lastTradePrice

/-- `str(raw.get(key, ""))`. -/
def Dict.textOf (env : PyEnv) (raw : Dict) (key : String) : String :=
  if raw.contains key then (raw.get key).text env.repr else ""

/-- `bool(raw.get(key, default))`. -/
def Dict.flag (raw : Dict) (key : String) (default : Bool) : Bool :=
  if raw.contains key then (raw.get key).truthy else default

/-- `str(value) if value else None`. -/
def Json.textIfTruthy (env : PyEnv) (value : Json) : Option String :=
  if value.truthy then some (value.text env.repr) else none

def normalizeGammaMarket (env : PyEnv) (raw event : Dict) : Except PyErr (Option ListedMarket) := do
  let items ← parseJsonArray env (raw.get "clobTokenIds")
  let tokenIds := (items.filter Json.truthy).map (Json.text env.repr)
  let marketId := raw.get "id"
  let conditionId := (raw.get "conditionId").orElse (raw.get "condition_id")
  match tokenIds with
  | [] => return none
  | yesTokenId :: rest =>
    if !marketId.truthy || !conditionId.truthy then return none
    let tags ← tagItems (if event.contains "tags" then event.get "tags" else .arr [])
    let liquidityNum ← toFloatOrNone (raw.get "liquidityNum")
    let liquidity ← match liquidityNum with
      | some q => .ok q
      | none => (toFloatOrNone (raw.get "liquidity")).map (Option.getD · 0)
    let bestBid ← toFloatOrNone (raw.get "bestBid")
    let bestAsk ← toFloatOrNone (raw.get "bestAsk")
    let spread ← toFloatOrNone (raw.get "spread")
    let lastTradePrice ← toFloatOrNone (raw.get "lastTradePrice")
    let volume24h ← toFloatOrNone (raw.get "volume24hr")
    let takerFeeRate ← rawTakerFeeRate raw
    let outcomePrices ← parseOutcomePrices env (raw.get "outcomePrices")
    return some {
      marketId := marketId.text env.repr
      conditionId := conditionId.text env.repr
      question := raw.textOf env "question"
      slug := raw.textOf env "slug"
      yesTokenId := yesTokenId
      noTokenId := rest.head?
      endDate := parseIso env ((raw.get "endDate").orElse (raw.get "endDateIso"))
      bestBid := bestBid
      bestAsk := bestAsk
      spread := spread
      lastTradePrice := lastTradePrice
      volume24h := volume24h.getD 0
      liquidity := liquidity
      takerFeeRate := takerFeeRate
      closed := raw.flag "closed" true
      acceptingOrders := raw.flag "acceptingOrders" false
      enableOrderBook := raw.flag "enableOrderBook" false
      eventId := (event.get "id").textIfTruthy env
      eventTitle := (event.get "title").textIfTruthy env
      eventTags := tags.filterMap (tagSlug env)
      negRisk := raw.flag "negRisk" false
      outcomePrices := outcomePrices }

def bookDepth : ℕ := 20

/-- One raw level, unless it is malformed or out of domain. -/
def bookLevel (level : Json) : Except PyErr (Option Level) :=
  match level with
  | .obj level => do
    let price ← toFloatOrNone (Dict.get level "price")
    let size ← toFloatOrNone (Dict.get level "size")
    return price.bind fun price => size.bind fun size =>
      if 0 < price ∧ price < 1 ∧ 0 < size then some (price, size) else none
  | _ => return none

def bestFirst (descending : Bool) (l l' : Level) : Prop :=
  if descending then l'.1 ≤ l.1 else l.1 ≤ l'.1

instance (descending : Bool) : DecidableRel (bestFirst descending) := fun l l' =>
  inferInstanceAs (Decidable (if descending then l'.1 ≤ l.1 else l.1 ≤ l'.1))

def bookLevels (raw : Json) (descending : Bool) (depth : ℕ) : Except PyErr (List Level) :=
  match raw with
  | .arr raw => do
    let levels ← raw.mapM bookLevel
    return ((levels.filterMap id).insertionSort (bestFirst descending)).take depth
  | _ => return []

def parseClobBook (raw : Dict) (tokenId : String) (depth : ℕ) (now : ℚ) : Except PyErr OrderBook := do
  let tsMs ← toFloatOrNone (raw.get "timestamp")
  let bids ← bookLevels (raw.get "bids") true depth
  let asks ← bookLevels (raw.get "asks") false depth
  return ⟨tokenId, (tsMs.map (· / 1000)).getD now, bids, asks⟩

def Json.dictOrEmpty : Json → Dict
  | .obj d => d
  | _ => []

def fetchBook (env : PyEnv) (first second : Json) (tokenId : String) (now : ℚ) :
    Except PyErr OrderBook := do
  let raw ← getJson env first second
  parseClobBook raw.dictOrEmpty tokenId bookDepth now

end OpenPoly
