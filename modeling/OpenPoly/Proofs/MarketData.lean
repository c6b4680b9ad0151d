import OpenPoly.Lib.Except
import OpenPoly.Lib.StableSort
import OpenPoly.Spec.MarketData

/-! Malformed market data: which fields make a Gamma market, a price level or a
book raise, where every other malformed field only goes missing. -/

namespace OpenPoly

open Results

def HugeInt (v : Json) : Prop := ∃ n : ℤ, v = .int n ∧ floatOverflow ≤ |(n : ℚ)|

/-- `v` is a number, or a text of one, that is read as the double `q`. -/
def IsNumber (v : Json) (q : ℚ) : Prop :=
  (∀ b, v ≠ .bool b) ∧ ∃ x, pyFloat v = .ok (.fin x) ∧ nearestDouble x = q

theorem floatOfString_error {s : String} {e : PyErr} (h : floatOfString s = .error e) :
    e = .valueError := by
  unfold floatOfString at h
  cases hd : dropUnderscores ' ' (literalChars s) with
  | none =>
    rw [hd] at h
    exact (Except.error.inj h).symm
  | some cs =>
    simp only [hd] at h
    cases hq : decimalValue (takeSign cs).2 with
    | none =>
      simp only [hq] at h
      split_ifs at h
      exact (Except.error.inj h).symm
    | some q =>
      simp only [hq] at h
      split_ifs at h

theorem toFloatOrNone_str (s : String) : ∃ r, toFloatOrNone (.str s) = .ok r := by
  have hread : pyFloat (.str s) = floatOfString s := rfl
  unfold toFloatOrNone
  cases h : floatOfString s with
  | ok x => cases x <;> simp [hread, h]
  | error e =>
    obtain rfl := floatOfString_error h
    simp [hread, h]

theorem toFloatOrNone_int (n : ℤ) :
    toFloatOrNone (.int n) =
      if floatOverflow ≤ |(n : ℚ)| then .error .overflowError else .ok (some (nearestDouble n)) := by
  unfold toFloatOrNone pyFloat toFloat
  simp only [le_abs, ← le_neg]
  by_cases hpos : floatOverflow ≤ (n : ℚ)
  · simp [hpos]
  · by_cases hneg : (n : ℚ) ≤ -floatOverflow
    · simp [hpos, hneg]
    · simp [hpos, hneg]

/-- Only an integer too large for a float escapes the converter's net. -/
theorem toFloatOrNone_fails {v : Json} : Fails (toFloatOrNone v) ↔ HugeInt v := by
  cases v with
  | int n =>
    rw [toFloatOrNone_int]
    split_ifs with h <;> simp [HugeInt, h]
  | str s =>
    obtain ⟨r, hr⟩ := toFloatOrNone_str s
    simp [HugeInt, hr]
  | float x => cases x <;> simp [HugeInt, toFloatOrNone, pyFloat]
  | null => simp [HugeInt, toFloatOrNone]
  | bool b => simp [HugeInt, toFloatOrNone]
  | arr xs => simp [HugeInt, toFloatOrNone, pyFloat]
  | obj kvs => simp [HugeInt, toFloatOrNone, pyFloat]

theorem toFloatOrNone_some {v : Json} {q : ℚ} : toFloatOrNone v = .ok (some q) ↔ IsNumber v q := by
  unfold IsNumber
  cases v with
  | null => simp [toFloatOrNone, pyFloat]
  | bool b => simp [toFloatOrNone]
  | _ =>
    simp only [toFloatOrNone, ne_eq, reduceCtorEq, not_false_eq_true, implies_true, true_and]
    split <;> simp_all

theorem toFloatOrNone_none {v : Json} (h : ¬ HugeInt v) :
    toFloatOrNone v = .ok none ↔ ∀ q, ¬ IsNumber v q := by
  obtain ⟨r, hr⟩ := not_fails.mp (mt toFloatOrNone_fails.mp h)
  cases r with
  | none => simp [← toFloatOrNone_some, hr]
  | some q => simp [← toFloatOrNone_some, hr]

def Json.elements : Json → List Json
  | .arr xs => xs
  | _ => []

/-- `v` is the array `xs`, or a text of it. -/
def IsArray (env : PyEnv) (v : Json) (xs : List Json) : Prop :=
  v = .arr xs ∨ ∃ s, v = .str s ∧ jsonLoads env.maxDepth s = .ok (.arr xs)

def ArrayRaises (env : PyEnv) (v : Json) : Prop :=
  ∃ s e, v = .str s ∧ jsonLoads env.maxDepth s = .error e ∧ e ≠ jsonDecodeError

theorem parseJsonArray_fails {env : PyEnv} {v : Json} :
    Fails (parseJsonArray env v) ↔ ArrayRaises env v := by
  unfold ArrayRaises parseJsonArray
  cases v with
  | str s =>
    cases hs : jsonLoads env.maxDepth s with
    | error e => by_cases he : e = jsonDecodeError <;> simp [hs, he]
    | ok w => cases w <;> simp [hs]
  | _ => simp

theorem parseJsonArray_ok {env : PyEnv} {v : Json} {xs : List Json} (hne : xs ≠ []) :
    parseJsonArray env v = .ok xs ↔ IsArray env v xs := by
  unfold IsArray parseJsonArray
  cases v with
  | str s =>
    cases hs : jsonLoads env.maxDepth s with
    | error e => by_cases he : e = jsonDecodeError <;> simp [hs, he, hne.symm]
    | ok w => cases w <;> simp [hs, hne.symm]
  | _ => simp [hne.symm]

/-- The rate of the fee schedule, if there is one. -/
def scheduleRate (raw : Dict) : Json :=
  match raw.get "feeSchedule" with
  | .obj schedule => Dict.get schedule "rate"
  | _ => .null

def FeeRaises (raw : Dict) : Prop :=
  raw.get "feesEnabled" ≠ .bool false ∧
    (HugeInt (scheduleRate raw) ∨
      (¬ ∃ q, IsNumber (scheduleRate raw) q ∧ 0 ≤ q) ∧ HugeInt (raw.get "takerBaseFee"))

theorem rawTakerFeeRate_off {raw : Dict} (h : raw.get "feesEnabled" = .bool false) :
    rawTakerFeeRate raw = .ok (some 0) := by
  unfold rawTakerFeeRate
  rw [h]
  rfl

theorem rawTakerFeeRate_on {raw : Dict} (h : raw.get "feesEnabled" ≠ .bool false) :
    rawTakerFeeRate raw = toFloatOrNone (scheduleRate raw) >>= fun rate =>
      if ∃ q ∈ rate, 0 ≤ q then .ok rate
      else (toFloatOrNone (raw.get "takerBaseFee")).map (Option.map (· / 10000)) := by
  unfold rawTakerFeeRate
  split_ifs with hoff
  · cases hv : raw.get "feesEnabled" with
    | bool b => cases b <;> simp_all
    | _ => simp [hv] at hoff
  · unfold scheduleRate
    cases raw.get "feeSchedule" with
    | obj schedule =>
      dsimp only
      cases toFloatOrNone (Dict.get schedule "rate") with
      | error e => rfl
      | ok rate =>
        simp only [bind, Except.bind]
        cases rate with
        | none => simp; rfl
        | some q => by_cases hq : 0 ≤ q <;> simp [hq] <;> rfl
    | _ => simp [toFloatOrNone, bind, Except.bind]; rfl

theorem rawTakerFeeRate_fails {raw : Dict} : Fails (rawTakerFeeRate raw) ↔ FeeRaises raw := by
  unfold FeeRaises
  by_cases hoff : raw.get "feesEnabled" = .bool false
  · simp [hoff, rawTakerFeeRate_off hoff]
  · rw [rawTakerFeeRate_on hoff, fails_bind, toFloatOrNone_fails]
    simp only [ne_eq, hoff, not_false_eq_true, true_and, ← toFloatOrNone_some]
    apply or_congr_right'
    intro hrate
    obtain ⟨rate, hr⟩ := not_fails.mp (mt toFloatOrNone_fails.mp hrate)
    have husable : (∃ q, Except.ok (ε := PyErr) rate = .ok (some q) ∧ 0 ≤ q) ↔ ∃ q ∈ rate, 0 ≤ q := by
      simp [Option.mem_def]
    rw [hr, husable]
    simp only [Except.ok.injEq, exists_eq_left']
    split_ifs with hq
    · exact iff_of_false fails_ok fun h => h.1 hq
    · rw [fails_map, toFloatOrNone_fails]
      exact (and_iff_right hq).symm

def OutcomeRaises (env : PyEnv) (v : Json) : Prop :=
  ArrayRaises env v ∨ ∃ x y, IsArray env v [x, y] ∧ (HugeInt x ∨ HugeInt y)

theorem parseOutcomePrices_fails {env : PyEnv} {v : Json} :
    Fails (parseOutcomePrices env v) ↔ OutcomeRaises env v := by
  have hpair : ∀ x y : Json, Fails (do
      let a ← toFloatOrNone x
      let b ← toFloatOrNone y
      return a.bind fun a => b.map fun b => (a, b)) ↔ HugeInt x ∨ HugeInt y := by
    intro x y
    rw [fails_bind_const fun a => fails_bind_const (q := False) fun b => by simp,
      toFloatOrNone_fails, toFloatOrNone_fails, or_false]
  unfold parseOutcomePrices OutcomeRaises
  rw [fails_bind, parseJsonArray_fails]
  apply or_congr_right
  constructor
  · rintro ⟨xs, hxs, hfail⟩
    rcases xs with _ | ⟨x, _ | ⟨y, _ | ⟨z, zs⟩⟩⟩
    · exact absurd hfail fails_pure
    · exact absurd hfail fails_pure
    · exact ⟨x, y, (parseJsonArray_ok (by simp)).mp hxs, (hpair x y).mp hfail⟩
    · exact absurd hfail fails_pure
  · rintro ⟨x, y, hxy, hhuge⟩
    exact ⟨[x, y], (parseJsonArray_ok (by simp)).mpr hxy, (hpair x y).mpr hhuge⟩

/-- What a `for` can walk. -/
def Json.iterable : Json → Bool
  | .str _ | .arr _ | .obj _ => true
  | _ => false

def TagsRaise (event : Dict) : Prop := event.contains "tags" ∧ !(event.get "tags").iterable

theorem tagItems_fails {event : Dict} :
    Fails (tagItems (if event.contains "tags" then event.get "tags" else .arr [])) ↔ TagsRaise event := by
  unfold TagsRaise
  split_ifs with h
  · cases event.get "tags" <;> simp [tagItems, Json.iterable, h]
  · simp [tagItems, h]

/-- A market that names its tokens, itself and its condition. -/
def Identified (env : PyEnv) (raw : Dict) : Prop :=
  (∃ xs, IsArray env (raw.get "clobTokenIds") xs ∧ ∃ x ∈ xs, x.truthy) ∧
    (raw.get "id").truthy ∧ ((raw.get "conditionId").orElse (raw.get "condition_id")).truthy

def numberFields : List String :=
  ["liquidityNum", "bestBid", "bestAsk", "spread", "lastTradePrice", "volume24hr"]

def FieldsRaise (env : PyEnv) (raw event : Dict) : Prop :=
  TagsRaise event ∨ (∃ key ∈ numberFields, HugeInt (raw.get key)) ∨
    ((∀ q, ¬ IsNumber (raw.get "liquidityNum") q) ∧ HugeInt (raw.get "liquidity")) ∨
    FeeRaises raw ∨ OutcomeRaises env (raw.get "outcomePrices")

/-- The markets that raise: one whose token ids do, or an identified one with a
field that does. -/
def NormalizeRaises (env : PyEnv) (raw event : Dict) : Prop :=
  ArrayRaises env (raw.get "clobTokenIds") ∨ Identified env raw ∧ FieldsRaise env raw event

/-- The fields read after the liquidity. -/
theorem laterFields_fail {env : PyEnv} {raw : Dict}
    {f : Option ℚ → Option ℚ → Option ℚ → Option ℚ → Option ℚ → Option ℚ → Option (ℚ × ℚ) → ListedMarket} :
    Fails (do
      let bestBid ← toFloatOrNone (raw.get "bestBid")
      let bestAsk ← toFloatOrNone (raw.get "bestAsk")
      let spread ← toFloatOrNone (raw.get "spread")
      let lastTradePrice ← toFloatOrNone (raw.get "lastTradePrice")
      let volume24h ← toFloatOrNone (raw.get "volume24hr")
      let takerFeeRate ← rawTakerFeeRate raw
      let outcomePrices ← parseOutcomePrices env (raw.get "outcomePrices")
      return some (f bestBid bestAsk spread lastTradePrice volume24h takerFeeRate outcomePrices)) ↔
    HugeInt (raw.get "bestBid") ∨ HugeInt (raw.get "bestAsk") ∨ HugeInt (raw.get "spread") ∨
      HugeInt (raw.get "lastTradePrice") ∨ HugeInt (raw.get "volume24hr") ∨ FeeRaises raw ∨
      OutcomeRaises env (raw.get "outcomePrices") := by
  refine fails_bind_congr toFloatOrNone_fails fun _ => fails_bind_congr toFloatOrNone_fails fun _ =>
    fails_bind_congr toFloatOrNone_fails fun _ => fails_bind_congr toFloatOrNone_fails fun _ =>
    fails_bind_congr toFloatOrNone_fails fun _ => fails_bind_congr rawTakerFeeRate_fails fun _ => ?_
  rw [fails_bind_congr (q := False) parseOutcomePrices_fails fun _ => iff_of_false fails_pure id, or_false]

/-- The fields of an identified market, in the order they are read. -/
theorem fields_fail {raw event : Dict} {f : List Json → ℚ → Except PyErr (Option ListedMarket)} {q : Prop}
    (hf : ∀ tags liquidity, Fails (f tags liquidity) ↔ q) :
    Fails (do
      let tags ← tagItems (if event.contains "tags" then event.get "tags" else .arr [])
      let liquidityNum ← toFloatOrNone (raw.get "liquidityNum")
      let liquidity ← match liquidityNum with
        | some q => .ok q
        | none => (toFloatOrNone (raw.get "liquidity")).map (Option.getD · 0)
      f tags liquidity) ↔
    TagsRaise event ∨ HugeInt (raw.get "liquidityNum") ∨
      ((∀ q, ¬ IsNumber (raw.get "liquidityNum") q) ∧ HugeInt (raw.get "liquidity")) ∨ q := by
  refine fails_bind_congr tagItems_fails fun tags => ?_
  rw [fails_bind_option (p := HugeInt (raw.get "liquidity")) (fun l => hf tags l)
    (fails_bind_congr (fails_map.trans toFloatOrNone_fails) fun l => hf tags l), toFloatOrNone_fails]
  apply or_congr_right'
  intro hnum
  rw [toFloatOrNone_none hnum]

theorem normalizeGammaMarket_fails {env : PyEnv} {raw event : Dict} :
    Fails (normalizeGammaMarket env raw event) ↔ NormalizeRaises env raw event := by
  unfold normalizeGammaMarket NormalizeRaises
  rw [fails_bind, parseJsonArray_fails]
  apply or_congr_right
  refine Iff.trans (b := ∃ items, parseJsonArray env (raw.get "clobTokenIds") = .ok items ∧
    (∃ x ∈ items, x.truthy) ∧ ((raw.get "id").truthy ∧
      ((raw.get "conditionId").orElse (raw.get "condition_id")).truthy) ∧ FieldsRaise env raw event)
    (exists_congr fun items => and_congr_right fun hitems => ?_) ?_
  · cases htokens : items.filter Json.truthy with
    | nil =>
      refine iff_of_false fails_pure fun h => ?_
      obtain ⟨x, hx, htruthy⟩ := h.1
      exact List.filter_eq_nil_iff.mp htokens x hx htruthy
    | cons x rest =>
      have hx : ∃ x ∈ items, x.truthy := by
        have hmem : x ∈ items.filter Json.truthy := htokens ▸ List.mem_cons_self
        exact ⟨x, (List.mem_filter.mp hmem).1, (List.mem_filter.mp hmem).2⟩
      rw [and_iff_right hx]
      simp only [List.map_cons]
      by_cases hnamed : (raw.get "id").truthy ∧ ((raw.get "conditionId").orElse (raw.get "condition_id")).truthy
      · rw [and_iff_right hnamed, if_neg (by simp [hnamed.1, hnamed.2])]
        refine (fields_fail fun tags liquidity => laterFields_fail).trans ?_
        simp only [FieldsRaise, numberFields, List.exists_mem_cons_iff, List.not_mem_nil, false_and,
          exists_false, or_false]
        tauto
      · rw [if_pos (by simp only [Bool.or_eq_true, Bool.not_eq_true']; grind)]
        exact iff_of_false fails_pure fun h => hnamed h.1
  · constructor
    · rintro ⟨items, hitems, hany, hnamed, hfields⟩
      have hne : items ≠ [] := by
        rintro rfl
        simp at hany
      exact ⟨⟨⟨items, (parseJsonArray_ok hne).mp hitems, hany⟩, hnamed⟩, hfields⟩
    · rintro ⟨⟨⟨items, hitems, hany⟩, hnamed⟩, hfields⟩
      have hne : items ≠ [] := by
        rintro rfl
        simp at hany
      exact ⟨items, (parseJsonArray_ok hne).mpr hitems, hany, hnamed, hfields⟩

/-- `r` is the number `v` holds, if it holds one. -/
def NumberIn (v : Json) (r : Option ℚ) : Prop := ∀ q, r = some q ↔ IsNumber v q

theorem NumberIn.unique {v : Json} {r r' : Option ℚ} (h : NumberIn v r) (h' : NumberIn v r') : r = r' :=
  Option.ext fun q => (h q).trans (h' q).symm

theorem toFloatOrNone_numberIn {v : Json} {r : Option ℚ} (h : toFloatOrNone v = .ok r) : NumberIn v r := by
  intro q
  rw [← toFloatOrNone_some, h, Except.ok.injEq]

theorem numberIn_exists (v : Json) : ∃ r, NumberIn v r := by
  cases h : toFloatOrNone v with
  | ok r => exact ⟨r, toFloatOrNone_numberIn h⟩
  | error e =>
    refine ⟨none, fun q => ?_⟩
    rw [← toFloatOrNone_some, h]
    simp

/-- Nothing where the fees are off, else the schedule's rate if it is usable, else the
base fee, which is in basis points. -/
def FeeIn (raw : Dict) (fee : Option ℚ) : Prop :=
  (raw.get "feesEnabled" = .bool false ∧ fee = some 0) ∨
    raw.get "feesEnabled" ≠ .bool false ∧ ∃ rate bps, NumberIn (scheduleRate raw) rate ∧
      NumberIn (raw.get "takerBaseFee") bps ∧ fee = (rate.filter (0 ≤ ·)).or (bps.map (· / 10000))

theorem FeeIn.unique {raw : Dict} {fee fee' : Option ℚ} (h : FeeIn raw fee) (h' : FeeIn raw fee') :
    fee = fee' := by
  rcases h with ⟨hoff, rfl⟩ | ⟨hon, rate, bps, hrate, hbps, rfl⟩
  · rcases h' with ⟨-, rfl⟩ | ⟨hon', -⟩
    · rfl
    · exact absurd hoff hon'
  · rcases h' with ⟨hoff', -⟩ | ⟨-, rate', bps', hrate', hbps', rfl⟩
    · exact absurd hoff' hon
    · rw [hrate.unique hrate', hbps.unique hbps']

theorem rawTakerFeeRate_feeIn {raw : Dict} {fee : Option ℚ} (h : rawTakerFeeRate raw = .ok fee) :
    FeeIn raw fee := by
  by_cases hoff : raw.get "feesEnabled" = .bool false
  · rw [rawTakerFeeRate_off hoff] at h
    exact .inl ⟨hoff, (Except.ok.inj h).symm⟩
  · rw [rawTakerFeeRate_on hoff] at h
    obtain ⟨rate, hrate, h⟩ := except_bind_ok h
    split_ifs at h with husable
    · obtain ⟨q, rfl, hq⟩ := husable
      obtain rfl := Except.ok.inj h
      obtain ⟨bps, hbps⟩ := numberIn_exists (raw.get "takerBaseFee")
      exact .inr ⟨hoff, some q, bps, toFloatOrNone_numberIn hrate, hbps, by simp [Option.filter, hq]⟩
    · obtain ⟨bps, hbps, rfl⟩ := except_map_ok h
      refine .inr ⟨hoff, rate, bps, toFloatOrNone_numberIn hrate, toFloatOrNone_numberIn hbps, ?_⟩
      have hnone : rate.filter (0 ≤ ·) = none := by
        cases rate with
        | none => rfl
        | some q => simpa [Option.filter] using husable
      rw [hnone, Option.none_or]

/-- The liquidity as a number, or else as a text, or else 0. -/
def LiquidityIn (raw : Dict) (q : ℚ) : Prop :=
  ∃ num text, NumberIn (raw.get "liquidityNum") num ∧ NumberIn (raw.get "liquidity") text ∧
    q = (num.or text).getD 0

def OutcomeIn (env : PyEnv) (v : Json) (prices : Option (ℚ × ℚ)) : Prop :=
  ∀ p, prices = some p ↔ ∃ x y, IsArray env v [x, y] ∧ IsNumber x p.1 ∧ IsNumber y p.2

theorem parseOutcomePrices_outcomeIn {env : PyEnv} {v : Json} {prices : Option (ℚ × ℚ)}
    (h : parseOutcomePrices env v = .ok prices) : OutcomeIn env v prices := by
  intro p
  obtain ⟨items, hitems, h⟩ := except_bind_ok h
  have hread : ∀ x y, IsArray env v [x, y] ↔ items = [x, y] := fun x y => by
    rw [← parseJsonArray_ok (by simp), hitems, Except.ok.injEq]
  simp only [hread]
  split at h
  · rename_i x y
    obtain ⟨a, ha, h⟩ := except_bind_ok h
    obtain ⟨b, hb, h⟩ := except_bind_ok h
    obtain rfl := Except.ok.inj h
    have hx := toFloatOrNone_numberIn ha p.1
    have hy := toFloatOrNone_numberIn hb p.2
    constructor
    · intro hp
      obtain ⟨a', rfl, hp⟩ := Option.bind_eq_some_iff.mp hp
      obtain ⟨b', rfl, rfl⟩ := Option.map_eq_some_iff.mp hp
      exact ⟨x, y, rfl, hx.mp rfl, hy.mp rfl⟩
    · rintro ⟨x', y', heq, hx', hy'⟩
      obtain ⟨rfl, rfl⟩ : x = x' ∧ y = y' := by simpa using heq
      simp [hx.mpr hx', hy.mpr hy']
  · rename_i hshape
    obtain rfl := Except.ok.inj h
    refine iff_of_false (by simp) ?_
    rintro ⟨x, y, rfl, -⟩
    exact hshape x y rfl

def eventTags (env : PyEnv) (event : Dict) : List String := (event.get "tags").elements.filterMap (tagSlug env)

/-- `raw`, listed under `event`, is the market `m`: it names its tokens, itself and its
condition, and every other field is there or missing. -/
structure IsMarket (env : PyEnv) (raw event : Dict) (m : ListedMarket) : Prop where
  tokens : ∃ xs rest, IsArray env (raw.get "clobTokenIds") xs ∧
    (xs.filter Json.truthy).map (Json.text env.repr) = m.yesTokenId :: rest ∧ m.noTokenId = rest.head?
  named : (raw.get "id").truthy ∧ m.marketId = (raw.get "id").text env.repr
  conditioned : ((raw.get "conditionId").orElse (raw.get "condition_id")).truthy ∧
    m.conditionId = ((raw.get "conditionId").orElse (raw.get "condition_id")).text env.repr
  texts : m.question = raw.textOf env "question" ∧ m.slug = raw.textOf env "slug"
  endDate : m.endDate = parseIso env ((raw.get "endDate").orElse (raw.get "endDateIso"))
  bestBid : NumberIn (raw.get "bestBid") m.bestBid
  bestAsk : NumberIn (raw.get "bestAsk") m.bestAsk
  spread : NumberIn (raw.get "spread") m.spread
  lastTradePrice : NumberIn (raw.get "lastTradePrice") m.lastTradePrice
  volume24h : ∃ r, NumberIn (raw.get "volume24hr") r ∧ m.volume24h = r.getD 0
  liquidity : LiquidityIn raw m.liquidity
  takerFeeRate : FeeIn raw m.takerFeeRate
  flags : m.closed = raw.flag "closed" true ∧ m.acceptingOrders = raw.flag "acceptingOrders" false ∧
    m.enableOrderBook = raw.flag "enableOrderBook" false ∧ m.negRisk = raw.flag "negRisk" false
  event : m.eventId = (event.get "id").textIfTruthy env ∧ m.eventTitle = (event.get "title").textIfTruthy env ∧
    m.eventTags = eventTags env event
  outcomePrices : OutcomeIn env (raw.get "outcomePrices") m.outcomePrices
  tickSize : m.orderPriceMinTickSize = none

theorem IsMarket.identified {env : PyEnv} {raw event : Dict} {m : ListedMarket} (h : IsMarket env raw event m) :
    Identified env raw := by
  obtain ⟨xs, rest, hxs, htokens, -⟩ := h.tokens
  refine ⟨⟨xs, hxs, ?_⟩, h.named.1, h.conditioned.1⟩
  by_contra hnone
  have hnil : xs.filter Json.truthy = [] := List.filter_eq_nil_iff.mpr fun x hx ht => hnone ⟨x, hx, ht⟩
  rw [hnil] at htokens
  cases htokens

theorem IsArray.unique {env : PyEnv} {v : Json} {xs ys : List Json} (h : IsArray env v xs)
    (h' : IsArray env v ys) : xs = ys := by
  rcases h with rfl | ⟨s, rfl, hs⟩
  · rcases h' with h' | ⟨s, h', -⟩
    · exact Json.arr.inj h'
    · cases h'
  · rcases h' with h' | ⟨s', h', hs'⟩
    · cases h'
    · obtain rfl := Json.str.inj h'
      exact Json.arr.inj (Except.ok.inj (hs.symm.trans hs'))

/-- The fields of a pair determine the market. -/
theorem IsMarket.unique {env : PyEnv} {raw event : Dict} {m m' : ListedMarket} (h : IsMarket env raw event m)
    (h' : IsMarket env raw event m') : m = m' := by
  obtain ⟨xs, rest, hxs, htokens, hno⟩ := h.tokens
  obtain ⟨xs', rest', hxs', htokens', hno'⟩ := h'.tokens
  obtain rfl := hxs.unique hxs'
  obtain ⟨hyes, rfl⟩ := List.cons.inj (htokens.symm.trans htokens')
  obtain ⟨volume, hvolume, hv⟩ := h.volume24h
  obtain ⟨volume', hvolume', hv'⟩ := h'.volume24h
  obtain ⟨num, text, hnum, htext, hl⟩ := h.liquidity
  obtain ⟨num', text', hnum', htext', hl'⟩ := h'.liquidity
  obtain rfl := hvolume.unique hvolume'
  obtain rfl := hnum.unique hnum'
  obtain rfl := htext.unique htext'
  have hprices : m.outcomePrices = m'.outcomePrices :=
    Option.ext fun p => (h.outcomePrices p).trans (h'.outcomePrices p).symm
  have hbid := h.bestBid.unique h'.bestBid
  have hask := h.bestAsk.unique h'.bestAsk
  have hspread := h.spread.unique h'.spread
  have hlast := h.lastTradePrice.unique h'.lastTradePrice
  have hfee := h.takerFeeRate.unique h'.takerFeeRate
  obtain ⟨hclosed, haccepting, hbook, hneg⟩ := h.flags
  obtain ⟨hclosed', haccepting', hbook', hneg'⟩ := h'.flags
  obtain ⟨hid, htitle, htags⟩ := h.event
  obtain ⟨hid', htitle', htags'⟩ := h'.event
  apply ListedMarket.ext
  · exact h.named.2.trans h'.named.2.symm
  · exact h.conditioned.2.trans h'.conditioned.2.symm
  · exact hyes
  · exact hno.trans hno'.symm
  · exact hfee
  · exact hneg.trans hneg'.symm
  · exact h.tickSize.trans h'.tickSize.symm
  · exact h.texts.1.trans h'.texts.1.symm
  · exact h.texts.2.trans h'.texts.2.symm
  · exact h.endDate.trans h'.endDate.symm
  · exact hbid
  · exact hask
  · exact hspread
  · exact hlast
  · exact hv.trans hv'.symm
  · exact hl.trans hl'.symm
  · exact hclosed.trans hclosed'.symm
  · exact haccepting.trans haccepting'.symm
  · exact hbook.trans hbook'.symm
  · exact hid.trans hid'.symm
  · exact htitle.trans htitle'.symm
  · exact htags.trans htags'.symm
  · exact hprices

/-- The fields read after the liquidity, where all of them can be. -/
theorem laterFields_ok {env : PyEnv} {raw : Dict} {market : ListedMarket}
    {f : Option ℚ → Option ℚ → Option ℚ → Option ℚ → Option ℚ → Option ℚ → Option (ℚ × ℚ) → ListedMarket}
    (h : (do
      let bestBid ← toFloatOrNone (raw.get "bestBid")
      let bestAsk ← toFloatOrNone (raw.get "bestAsk")
      let spread ← toFloatOrNone (raw.get "spread")
      let lastTradePrice ← toFloatOrNone (raw.get "lastTradePrice")
      let volume24h ← toFloatOrNone (raw.get "volume24hr")
      let takerFeeRate ← rawTakerFeeRate raw
      let outcomePrices ← parseOutcomePrices env (raw.get "outcomePrices")
      return some (f bestBid bestAsk spread lastTradePrice volume24h takerFeeRate outcomePrices)) =
      .ok (some market)) :
    ∃ bid ask spread last volume fee prices,
      NumberIn (raw.get "bestBid") bid ∧ NumberIn (raw.get "bestAsk") ask ∧
      NumberIn (raw.get "spread") spread ∧ NumberIn (raw.get "lastTradePrice") last ∧
      NumberIn (raw.get "volume24hr") volume ∧ FeeIn raw fee ∧
      parseOutcomePrices env (raw.get "outcomePrices") = .ok prices ∧
      market = f bid ask spread last volume fee prices := by
  obtain ⟨bid, hbid, h⟩ := except_bind_ok h
  obtain ⟨ask, hask, h⟩ := except_bind_ok h
  obtain ⟨spread, hspread, h⟩ := except_bind_ok h
  obtain ⟨last, hlast, h⟩ := except_bind_ok h
  obtain ⟨volume, hvolume, h⟩ := except_bind_ok h
  obtain ⟨fee, hfee, h⟩ := except_bind_ok h
  obtain ⟨prices, hprices, h⟩ := except_bind_ok h
  obtain rfl := Option.some.inj (Except.ok.inj h)
  exact ⟨bid, ask, spread, last, volume, fee, prices, toFloatOrNone_numberIn hbid, toFloatOrNone_numberIn hask,
    toFloatOrNone_numberIn hspread, toFloatOrNone_numberIn hlast, toFloatOrNone_numberIn hvolume,
    rawTakerFeeRate_feeIn hfee, hprices, rfl⟩

theorem tagItems_elements {event : Dict} {tags : List Json}
    (h : tagItems (if event.contains "tags" then event.get "tags" else .arr []) = .ok tags) :
    tags = (event.get "tags").elements := by
  by_cases hin : event.contains "tags"
  · rw [if_pos hin] at h
    cases htags : event.get "tags" <;> rw [htags] at h <;> cases h <;> rfl
  · rw [if_neg hin] at h
    obtain rfl := Except.ok.inj h
    have hfind : event.reverse.find? (fun kv => kv.1 == "tags") = none := by
      rw [List.find?_eq_none]
      intro kv hkv hkey
      exact hin (List.any_eq_true.mpr ⟨kv, List.mem_reverse.mp hkv, hkey⟩)
    rw [Dict.get, hfind]
    rfl

theorem liquidityIn_num {raw : Dict} {q : ℚ} (h : NumberIn (raw.get "liquidityNum") (some q)) :
    LiquidityIn raw q := by
  obtain ⟨text, htext⟩ := numberIn_exists (raw.get "liquidity")
  exact ⟨some q, text, h, htext, rfl⟩

theorem liquidityIn_text {raw : Dict} {liquidity : ℚ} (hnum : NumberIn (raw.get "liquidityNum") none)
    (h : (toFloatOrNone (raw.get "liquidity")).map (Option.getD · 0) = .ok liquidity) :
    LiquidityIn raw liquidity := by
  obtain ⟨text, htext, rfl⟩ := except_map_ok h
  exact ⟨none, text, hnum, toFloatOrNone_numberIn htext, rfl⟩

/-- What the normalizer makes of a market is what its fields say. -/
theorem normalizeGammaMarket_isMarket {env : PyEnv} {raw event : Dict} {m : ListedMarket}
    (h : normalizeGammaMarket env raw event = .ok (some m)) : IsMarket env raw event m := by
  unfold normalizeGammaMarket at h
  obtain ⟨items, hitems, h⟩ := except_bind_ok h
  dsimp only at h
  cases htokens : (items.filter Json.truthy).map (Json.text env.repr) with
  | nil =>
    rw [htokens] at h
    cases h
  | cons yes rest =>
    simp only [htokens] at h
    have hne : items ≠ [] := by
      rintro rfl
      simp at htokens
    have harray := (parseJsonArray_ok hne).mp hitems
    by_cases hnamed : (!(raw.get "id").truthy ||
        !((raw.get "conditionId").orElse (raw.get "condition_id")).truthy) = true
    · rw [if_pos hnamed] at h
      cases h
    · rw [if_neg hnamed] at h
      have hids : (raw.get "id").truthy ∧ ((raw.get "conditionId").orElse (raw.get "condition_id")).truthy := by
        simpa using hnamed
      obtain ⟨tags, htags, h⟩ := except_bind_ok h
      obtain ⟨num, hnum, h⟩ := except_bind_ok h
      have hnumIn := toFloatOrNone_numberIn hnum
      have hevent : tags.filterMap (tagSlug env) = eventTags env event := by
        rw [tagItems_elements htags, eventTags]
      rcases num with _ | q
      all_goals
        dsimp only at h
        obtain ⟨liquidity, hl, h⟩ := except_bind_ok h
        obtain ⟨bid, ask, spread, last, volume, fee, prices, hbid, hask, hspread, hlast, hvolume, hfee, hprices,
          rfl⟩ := laterFields_ok h
        refine ⟨⟨items, rest, harray, htokens, rfl⟩, ⟨hids.1, rfl⟩, ⟨hids.2, rfl⟩, ⟨rfl, rfl⟩, rfl, hbid, hask,
          hspread, hlast, ⟨volume, hvolume, rfl⟩, ?_, hfee, ⟨rfl, rfl, rfl, rfl⟩, ⟨rfl, rfl, hevent⟩,
          parseOutcomePrices_outcomeIn hprices, rfl⟩
      · exact liquidityIn_text hnumIn hl
      · obtain rfl := Except.ok.inj hl
        exact liquidityIn_num hnumIn

theorem normalizeGammaMarket_none {env : PyEnv} {raw event : Dict}
    (h : normalizeGammaMarket env raw event = .ok none) : ¬ Identified env raw := by
  rintro ⟨⟨xs, hxs, x, hx, htruthy⟩, hid, hcondition⟩
  obtain ⟨token, rest, htokens⟩ : ∃ token rest, xs.filter Json.truthy = token :: rest :=
    List.exists_cons_of_ne_nil (List.ne_nil_of_mem (List.mem_filter.mpr ⟨hx, htruthy⟩))
  unfold normalizeGammaMarket at h
  obtain ⟨items, hitems, h⟩ := except_bind_ok h
  rw [(parseJsonArray_ok (List.ne_nil_of_mem hx)).mpr hxs] at hitems
  obtain rfl := Except.ok.inj hitems
  simp only [htokens, List.map_cons, hid, hcondition, Bool.not_true, Bool.or_self, Bool.false_eq_true,
    if_false] at h
  obtain ⟨tags, -, h⟩ := except_bind_ok h
  obtain ⟨num, -, h⟩ := except_bind_ok h
  rcases num with _ | q
  all_goals
    dsimp only at h
    obtain ⟨liquidity, -, h⟩ := except_bind_ok h
    obtain ⟨bid, -, h⟩ := except_bind_ok h
    obtain ⟨ask, -, h⟩ := except_bind_ok h
    obtain ⟨spread, -, h⟩ := except_bind_ok h
    obtain ⟨last, -, h⟩ := except_bind_ok h
    obtain ⟨volume, -, h⟩ := except_bind_ok h
    obtain ⟨fee, -, h⟩ := except_bind_ok h
    obtain ⟨prices, -, h⟩ := except_bind_ok h
    cases h

def listedOf (env : PyEnv) (pair : Dict × Dict) : Option ListedMarket :=
  (normalizeGammaMarket env pair.1 pair.2).toOption.join

/-- Where nothing raises, the normalizer lists the well-formed markets and no other. -/
theorem listedOf_eq_some {env : PyEnv} {pair : Dict × Dict} (hraises : ¬ NormalizeRaises env pair.1 pair.2)
    {m : ListedMarket} : listedOf env pair = some m ↔ IsMarket env pair.1 pair.2 m := by
  obtain ⟨r, hr⟩ := not_fails.mp (mt normalizeGammaMarket_fails.mp hraises)
  unfold listedOf
  rw [hr]
  cases r with
  | none => exact iff_of_false (by simp [Except.toOption]) fun h => normalizeGammaMarket_none hr h.identified
  | some m' =>
    have hm' := normalizeGammaMarket_isMarket hr
    constructor
    · intro h
      obtain rfl : m' = m := by simpa [Except.toOption] using h
      exact hm'
    · intro h
      rw [hm'.unique h]
      rfl

/-- `level` is the price and size `l`, both in their domain. -/
def IsLevel (level : Json) (l : Level) : Prop :=
  ∃ kvs, level = .obj kvs ∧ IsNumber (Dict.get kvs "price") l.1 ∧ IsNumber (Dict.get kvs "size") l.2 ∧
    0 < l.1 ∧ l.1 < 1 ∧ 0 < l.2

def LevelRaises (level : Json) : Prop :=
  ∃ kvs, level = .obj kvs ∧ (HugeInt (Dict.get kvs "price") ∨ HugeInt (Dict.get kvs "size"))

theorem bookLevel_fails {level : Json} : Fails (bookLevel level) ↔ LevelRaises level := by
  unfold LevelRaises
  cases level with
  | obj kvs =>
    unfold bookLevel
    rw [fails_bind_congr toFloatOrNone_fails fun _ =>
      fails_bind_congr (q := False) toFloatOrNone_fails fun _ => iff_of_false fails_pure id]
    simp
  | _ => simp [bookLevel]

theorem bookLevel_some {level : Json} {l : Level} : bookLevel level = .ok (some l) ↔ IsLevel level l := by
  unfold IsLevel
  cases level with
  | obj kvs =>
    simp only [← toFloatOrNone_some, bookLevel]
    cases hp : toFloatOrNone (Dict.get kvs "price") with
    | error e => simp [hp, bind, Except.bind]
    | ok price =>
      cases hs : toFloatOrNone (Dict.get kvs "size") with
      | error e => simp [hp, hs, bind, Except.bind]
      | ok size => cases price <;> cases size <;> simp [hp, hs, bind, Except.bind, pure, Except.pure]; grind
  | _ => simp [bookLevel, pure, Except.pure]

def levelOf (level : Json) : Option Level := (bookLevel level).toOption.join

theorem levelOf_eq_some {level : Json} {l : Level} : levelOf level = some l ↔ IsLevel level l := by
  rw [← bookLevel_some]
  unfold levelOf
  cases bookLevel level <;> simp [Except.toOption]

/-- A side is its well-formed levels, best first and those of one price as they
came, as far as the depth. -/
def IsSide (raw : Json) (descending : Bool) (depth : ℕ) (side : List Level) : Prop :=
  ∃ sorted : List Level, sorted.Perm (raw.elements.filterMap levelOf) ∧
    sorted.Pairwise (bestFirst descending) ∧
    (∀ price, sorted.filter (·.1 = price) = (raw.elements.filterMap levelOf).filter (·.1 = price)) ∧
    side = sorted.take depth

instance (descending : Bool) : Std.Total (bestFirst descending) where
  total l l' := by
    unfold bestFirst
    cases descending
    · exact le_total _ _
    · exact le_total _ _

instance (descending : Bool) : IsTrans Level (bestFirst descending) where
  trans l l' l'' h h' := by
    unfold bestFirst at *
    cases descending
    · exact le_trans h h'
    · exact le_trans h' h

theorem bookLevels_fails {raw : Json} {descending : Bool} {depth : ℕ} :
    Fails (bookLevels raw descending depth) ↔ ∃ level ∈ raw.elements, LevelRaises level := by
  cases raw with
  | arr raw =>
    unfold bookLevels
    rw [fails_bind_congr (q := False) fails_mapM fun _ => iff_of_false fails_pure id]
    simp [bookLevel_fails, Json.elements]
  | _ => simp [bookLevels, Json.elements]

theorem bookLevels_ok {raw : Json} {descending : Bool} {depth : ℕ} {side : List Level}
    (h : bookLevels raw descending depth = .ok side) : IsSide raw descending depth side := by
  cases raw with
  | arr raw =>
    obtain ⟨levels, hlevels, hside⟩ := except_bind_ok h
    have hwell : levels.filterMap id = (Json.arr raw).elements.filterMap levelOf := filterMap_of_mapM hlevels
    rw [hwell] at hside
    refine ⟨_, List.perm_insertionSort (bestFirst descending) _, List.pairwise_insertionSort _ _,
      fun price => ?_, (Except.ok.inj hside).symm⟩
    apply StableSort.filter_insertionSort
    intro l l' hl hl'
    rw [decide_eq_true_eq] at hl hl'
    unfold bestFirst
    rw [hl, hl']
    cases descending <;> exact le_refl price
  | _ =>
    obtain rfl := Except.ok.inj h
    exact ⟨[], by simp [Json.elements], List.Pairwise.nil, by simp [Json.elements], by simp⟩

def BookRaises (raw : Dict) : Prop :=
  HugeInt (raw.get "timestamp") ∨ (∃ level ∈ (raw.get "bids").elements, LevelRaises level) ∨
    ∃ level ∈ (raw.get "asks").elements, LevelRaises level

theorem parseClobBook_fails {raw : Dict} {tokenId : String} {depth : ℕ} {now : ℚ} :
    Fails (parseClobBook raw tokenId depth now) ↔ BookRaises raw := by
  unfold parseClobBook BookRaises
  rw [fails_bind_congr toFloatOrNone_fails fun _ => fails_bind_congr bookLevels_fails fun _ =>
    fails_bind_congr (q := False) bookLevels_fails fun _ => iff_of_false fails_pure id, or_false]

theorem parseClobBook_ok {raw : Dict} {tokenId : String} {depth : ℕ} {now : ℚ} {book : OrderBook}
    (h : parseClobBook raw tokenId depth now = .ok book) :
    book.tokenId = tokenId ∧ IsSide (raw.get "bids") true depth book.bids ∧
      IsSide (raw.get "asks") false depth book.asks := by
  obtain ⟨tsMs, -, h⟩ := except_bind_ok h
  obtain ⟨bids, hbids, h⟩ := except_bind_ok h
  obtain ⟨asks, hasks, h⟩ := except_bind_ok h
  obtain rfl := Except.ok.inj h
  exact ⟨rfl, bookLevels_ok hbids, bookLevels_ok hasks⟩

end OpenPoly
