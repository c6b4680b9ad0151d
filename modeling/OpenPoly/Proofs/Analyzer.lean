import OpenPoly.Spec.Analyzer

/-! What `_interpret` makes of any tool input: a result exactly where the input names a
candidate, a level and a probability, and an exception where the level has no hash. -/

namespace OpenPoly

def Json.IsNumber (x : Json) (q : ℚ) : Prop := (∃ i : ℤ, x = .int i ∧ (i : ℚ) = q) ∨ x = .float (.fin q)

/-- The tool input names one of `n` candidates. -/
def Selects (result : Dict) (n : ℕ) (i : ℤ) : Prop := Dict.get result "selected_index" = .int i ∧ 1 ≤ i ∧ i ≤ n

/-- It is one an analysis is read off. -/
structure Actionable (result : Dict) (n : ℕ) (minConfidence : Confidence) : Prop where
  selects : ∃ i, Selects result n i
  confident : ∃ level : Confidence, Dict.get result "confidence" = .str level.name ∧ minConfidence.rank ≤ level.rank
  probable : ∃ p : ℚ, (Dict.get result "p_yes").IsNumber p ∧ 0 ≤ p ∧ p ≤ 1

/-- The analysis is the one the tool input gives. -/
structure Carries (result : Dict) (candidates : MarketCandidates) (res : AnalysisResult) : Prop where
  market : ∃ i, Selects result candidates.candidates.length i ∧
    candidates.candidates[i.toNat - 1]? = some res.marketId
  confidence : Dict.get result "confidence" = .str res.confidence.name
  pModel : (Dict.get result "p_yes").IsNumber res.pModel
  newsDirection : ∀ direction, res.newsDirection = some direction ↔
    Dict.get result "news_direction" = .str direction.name

def Dict.Holds (signals extra : Dict) : Prop :=
  ∀ key, Dict.contains extra key = true → Dict.contains signals key = true ∧ Dict.get signals key = Dict.get extra key

/-- What is asked of `_interpret`. -/
structure Interprets (repr : Json → String) (result : Dict) (candidates : MarketCandidates)
    (minConfidence : Confidence) (extra : Dict) : Prop where
  returns : ∃ out, interpret repr result candidates minConfidence extra = .ok out
  picks : ∀ out, interpret repr result candidates minConfidence extra = .ok out →
    ((∃ res, out.payload = some res) ↔ Actionable result candidates.candidates.length minConfidence)
  carries : ∀ out res, interpret repr result candidates minConfidence extra = .ok out →
    out.payload = some res → Carries result candidates res
  signals : ∀ out, interpret repr result candidates minConfidence extra = .ok out → out.signals.Holds extra

variable {result extra : Dict} {n : ℕ} {candidates : MarketCandidates} {minConfidence : Confidence}

theorem selectedIndex_eq_some {x : Json} {k : ℕ} :
    selectedIndex n x = some k ↔ ∃ i : ℤ, x = .int i ∧ 1 ≤ i ∧ i ≤ n ∧ k = i.toNat - 1 := by
  unfold selectedIndex
  split
  · rename_i i
    split_ifs with h
    · simp [h, eq_comm]
    · simp only [Json.int.injEq, false_iff, not_exists, not_and]
      rintro j rfl h1 h2
      exact absurd ⟨h1, h2⟩ h
  · rename_i hne
    simp only [reduceCtorEq, false_iff, not_exists, not_and]
    exact fun i hi => absurd hi (hne i)

theorem selected_some (h : ∃ i, Selects result candidates.candidates.length i) :
    ∃ i marketId, Selects result candidates.candidates.length i ∧
      candidates.candidates[i.toNat - 1]? = some marketId ∧
      ((selectedIndex candidates.candidates.length (Dict.get result "selected_index")).bind
        fun k => candidates.candidates[k]?) = some marketId := by
  obtain ⟨i, hi⟩ := h
  have hlt : i.toNat - 1 < candidates.candidates.length := by
    have := hi.2.1
    have := hi.2.2
    omega
  have hget := List.getElem?_eq_getElem hlt
  refine ⟨i, _, hi, hget, ?_⟩
  rw [selectedIndex_eq_some.mpr ⟨i, hi.1, hi.2.1, hi.2.2, rfl⟩]
  exact hget

theorem selected_none (h : ¬ ∃ i, Selects result candidates.candidates.length i) :
    ((selectedIndex candidates.candidates.length (Dict.get result "selected_index")).bind
      fun k => candidates.candidates[k]?) = none := by
  cases hk : selectedIndex candidates.candidates.length (Dict.get result "selected_index") with
  | none => rfl
  | some k =>
    obtain ⟨i, hi, h1, h2, -⟩ := selectedIndex_eq_some.mp hk
    exact absurd ⟨i, hi, h1, h2⟩ h

theorem confidence_ofText (level : Confidence) {s : String} : Confidence.ofText s = some level ↔ s = level.name := by
  constructor
  · intro h
    unfold Confidence.ofText at h
    simpa [eq_comm] using List.find?_some h
  · rintro rfl
    cases level <;> rfl

theorem direction_ofText (direction : NewsDirection) {s : String} :
    NewsDirection.ofText s = some direction ↔ s = direction.name := by
  constructor
  · intro h
    unfold NewsDirection.ofText at h
    simpa [eq_comm] using List.find?_some h
  · rintro rfl
    cases direction <;> rfl

theorem newsDirectionOf_eq_some {x : Json} {direction : NewsDirection} :
    newsDirectionOf x = some direction ↔ x = .str direction.name := by
  cases x with
  | str s => simpa [newsDirectionOf] using direction_ofText direction
  | _ => simp [newsDirectionOf]

theorem confidenceOf_eq_some {x : Json} {level : Confidence} :
    confidenceOf x = .ok (some level) ↔ x = .str level.name := by
  cases x with
  | str s => simpa [confidenceOf] using confidence_ofText level
  | _ => simp [confidenceOf]

theorem probabilityOf_eq_some {x : Json} {p : ℚ} : probabilityOf x = some p ↔ x.IsNumber p ∧ 0 ≤ p ∧ p ≤ 1 := by
  cases x with
  | int i =>
    have hbound : (0 ≤ i ∧ i ≤ 1) ↔ (0 ≤ (i : ℚ) ∧ (i : ℚ) ≤ 1) := by
      refine and_congr ?_ ?_ <;> exact_mod_cast Iff.rfl
    simp only [probabilityOf, Json.IsNumber, Json.int.injEq, exists_eq_left', reduceCtorEq, or_false]
    split_ifs with h
    · rw [Option.some.injEq]
      exact ⟨fun heq => ⟨heq, heq ▸ hbound.mp h⟩, fun hp => hp.1⟩
    · refine iff_of_false (by simp) ?_
      rintro ⟨rfl, hp⟩
      exact h (hbound.mpr hp)
  | float x =>
    cases x with
    | fin q =>
      simp only [probabilityOf, Json.IsNumber, reduceCtorEq, false_and, exists_false, false_or, Json.float.injEq,
        PyFloat.fin.injEq]
      split_ifs with h
      · rw [Option.some.injEq]
        exact ⟨fun heq => ⟨heq, heq ▸ h⟩, fun hp => hp.1⟩
      · refine iff_of_false (by simp) ?_
        rintro ⟨rfl, hp⟩
        exact h hp
    | _ => simp [probabilityOf, Json.IsNumber]
  | _ => simp [probabilityOf, Json.IsNumber]

def outcomeKeys : List String :=
  ["selected_index", "market_id", "p_yes", "confidence", "news_id", "news_direction", "candidate_count"]

theorem holds_append {entries : Dict} (hentries : ∀ kv ∈ entries, kv.1 ∈ outcomeKeys)
    (hextra : ∀ key ∈ outcomeKeys, Dict.contains extra key = false) : Dict.Holds (extra ++ entries) extra := by
  intro key hkey
  have hfresh : ∀ kv ∈ entries, (kv.1 == key) = false := by
    intro kv hkv
    refine beq_eq_false_iff_ne.mpr fun heq => ?_
    rw [← heq, hextra _ (hentries kv hkv)] at hkey
    cases hkey
  refine ⟨?_, ?_⟩
  · unfold Dict.contains at hkey ⊢
    rw [List.any_append, hkey, Bool.true_or]
  · have hnone : entries.reverse.find? (fun kv => kv.1 == key) = none := by
      refine List.find?_eq_none.mpr fun kv hkv => ?_
      rw [hfresh kv (List.mem_reverse.mp hkv)]
      exact Bool.false_ne_true
    unfold Dict.get
    rw [List.reverse_append, List.find?_append, hnone, Option.none_or]

/-- The reasoning and the usage are no keys of an outcome. -/
theorem v1Signals_fresh (result : Dict) (usage : Option Json) :
    ∀ key ∈ outcomeKeys, Dict.contains (v1Signals result usage) key = false := by
  unfold outcomeKeys v1Signals
  cases usage <;> simp [usageSignal, Dict.contains]

variable {repr : Json → String}

def Json.Unhashable (x : Json) : Prop := (∃ xs, x = .arr xs) ∨ ∃ d, x = .obj d

theorem confidenceOf_error {x : Json} {exc : PyErr} (h : confidenceOf x = .error exc) : x.Unhashable := by
  cases x with
  | arr xs => exact .inl ⟨xs, rfl⟩
  | obj d => exact .inr ⟨d, rfl⟩
  | _ => cases h

/-- One outcome is all that is asked of it. -/
theorem interprets_of_outcome {out : AnalyzerOutput}
    (hout : interpret repr result candidates minConfidence extra = .ok out)
    (hpicks : (∃ res, out.payload = some res) ↔ Actionable result candidates.candidates.length minConfidence)
    (hcarries : ∀ res, out.payload = some res → Carries result candidates res) (hsignals : out.signals.Holds extra) :
    Interprets repr result candidates minConfidence extra := by
  have hself : ∀ out', interpret repr result candidates minConfidence extra = .ok out' → out' = out :=
    fun out' h => Except.ok.inj (h.symm.trans hout)
  refine ⟨⟨out, hout⟩, fun out' h => ?_, fun out' res h hres => ?_, fun out' h => ?_⟩
  · rw [hself out' h]
    exact hpicks
  · rw [hself out' h] at hres
    exact hcarries res hres
  · rw [hself out' h]
    exact hsignals

/-- An outcome without a result. -/
theorem interprets_of_none {out : AnalyzerOutput}
    (hout : interpret repr result candidates minConfidence extra = .ok out) (hpayload : out.payload = none)
    (hnot : ¬ Actionable result candidates.candidates.length minConfidence) (hsignals : out.signals.Holds extra) :
    Interprets repr result candidates minConfidence extra := by
  refine interprets_of_outcome hout (iff_of_false ?_ hnot) (fun res hres => ?_) hsignals
  · rintro ⟨res, hres⟩
    rw [hpayload] at hres
    cases hres
  · rw [hpayload] at hres
    cases hres

theorem holds_refl (extra : Dict) : extra.Holds extra := fun _ hkey => ⟨hkey, rfl⟩

/-- A picked candidate at a sufficient level: the probability decides. -/
theorem interprets_of_ranked (hextra : ∀ key ∈ outcomeKeys, Dict.contains extra key = false) {i : ℤ}
    {marketId : String} {level : Confidence} (hi : Selects result candidates.candidates.length i)
    (hmarket : candidates.candidates[i.toNat - 1]? = some marketId)
    (hpick : ((selectedIndex candidates.candidates.length (Dict.get result "selected_index")).bind
      fun k => candidates.candidates[k]?) = some marketId)
    (hconfidence : confidenceOf (Dict.get result "confidence") = .ok (some level))
    (hrank : ¬ level.rank < minConfidence.rank) :
    Interprets repr result candidates minConfidence extra := by
  cases hp : probabilityOf (Dict.get result "p_yes") with
  | none =>
    have hout : interpret repr result candidates minConfidence extra = .ok
        { payload := none, verdict := .error,
          reason := some ("malformed p_yes: " ++ repr (Dict.get result "p_yes")), signals := extra } := by
      simp only [interpret, hpick, hconfidence, hp]
      exact if_neg hrank
    refine interprets_of_none hout rfl (fun hact => ?_) (holds_refl extra)
    obtain ⟨p, hprobable⟩ := hact.probable
    rw [probabilityOf_eq_some.mpr hprobable] at hp
    cases hp
  | some p =>
    have hprobable := probabilityOf_eq_some.mp hp
    obtain ⟨out, hout, hres, hsignals⟩ : ∃ out,
        interpret repr result candidates minConfidence extra = .ok out ∧
          (∃ rationale, out.payload = some ⟨marketId, p, level, rationale,
            newsDirectionOf (Dict.get result "news_direction")⟩) ∧ out.signals.Holds extra := by
      simp only [interpret, hpick, hconfidence, hp]
      exact ⟨_, if_neg hrank, ⟨_, rfl⟩, holds_append (by simp [outcomeKeys]) hextra⟩
    obtain ⟨rationale, hres⟩ := hres
    have hlevel := confidenceOf_eq_some.mp hconfidence
    refine interprets_of_outcome hout (iff_of_true ⟨_, hres⟩ ?_) (fun res hres' => ?_) hsignals
    · exact ⟨⟨i, hi⟩, ⟨level, hlevel, not_lt.mp hrank⟩, p, hprobable⟩
    · obtain rfl := Option.some.inj (hres.symm.trans hres')
      exact ⟨⟨i, hi, hmarket⟩, hlevel, hprobable.1, fun direction => newsDirectionOf_eq_some⟩

theorem interprets_of_hashable (hextra : ∀ key ∈ outcomeKeys, Dict.contains extra key = false)
    (h : ¬ ((∃ i, Selects result candidates.candidates.length i) ∧ (Dict.get result "confidence").Unhashable)) :
    Interprets repr result candidates minConfidence extra := by
  by_cases hselects : ∃ i, Selects result candidates.candidates.length i
  swap
  · have hout : interpret repr result candidates minConfidence extra = .ok
        { payload := none, verdict := .skip, reason := some "no actionable market",
          signals := extra ++ [("selected_index", Dict.get result "selected_index")] } := by
      simp only [interpret, selected_none hselects]
      rfl
    exact interprets_of_none hout rfl (fun hact => hselects hact.selects)
      (holds_append (by simp [outcomeKeys]) hextra)
  obtain ⟨i, marketId, hi, hmarket, hpick⟩ := selected_some hselects
  cases hconfidence : confidenceOf (Dict.get result "confidence") with
  | error exc => exact absurd ⟨hselects, confidenceOf_error hconfidence⟩ h
  | ok level? =>
    cases level? with
    | none =>
      have hout : interpret repr result candidates minConfidence extra = .ok
          { payload := none, verdict := .error,
            reason := some ("malformed confidence: " ++ repr (Dict.get result "confidence")),
            signals := extra } := by
        simp only [interpret, hpick, hconfidence]
        rfl
      refine interprets_of_none hout rfl (fun hact => ?_) (holds_refl extra)
      obtain ⟨level, hlevel, -⟩ := hact.confident
      rw [confidenceOf_eq_some.mpr hlevel] at hconfidence
      cases hconfidence
    | some level =>
      by_cases hrank : level.rank < minConfidence.rank
      · have hout : interpret repr result candidates minConfidence extra = .ok
            { payload := none, verdict := .skip, reason := some "below min_confidence",
              signals := extra ++ [("selected_index", Dict.get result "selected_index"), ("market_id", .str marketId),
                ("p_yes", floatOrNone (probabilityOf (Dict.get result "p_yes"))),
                ("confidence", Dict.get result "confidence")] } := by
          simp only [interpret, hpick, hconfidence]
          exact if_pos hrank
        refine interprets_of_none hout rfl (fun hact => ?_) (holds_append (by simp [outcomeKeys]) hextra)
        obtain ⟨level', hlevel', hrank'⟩ := hact.confident
        rw [confidenceOf_eq_some.mpr hlevel'] at hconfidence
        obtain rfl : level' = level := by simpa using hconfidence
        exact absurd hrank (not_lt.mpr hrank')
      · exact interprets_of_ranked hextra hi hmarket hpick hconfidence hrank

theorem interpret_raises (hselects : ∃ i, Selects result candidates.candidates.length i)
    (h : (Dict.get result "confidence").Unhashable) :
    interpret repr result candidates minConfidence extra = .error .typeError := by
  obtain ⟨i, marketId, -, -, hpick⟩ := selected_some hselects
  have hconfidence : confidenceOf (Dict.get result "confidence") = .error .typeError := by
    rcases h with ⟨xs, hxs⟩ | ⟨d, hd⟩
    · rw [hxs]
      rfl
    · rw [hd]
      rfl
  simp only [interpret, hpick, hconfidence]
  rfl

/-- A tool input is interpreted as asked, unless it names a candidate and its level is a
list or an object. -/
theorem interprets_iff (repr : Json → String) (result : Dict) (candidates : MarketCandidates)
    (minConfidence : Confidence) {extra : Dict} (hextra : ∀ key ∈ outcomeKeys, Dict.contains extra key = false) :
    Interprets repr result candidates minConfidence extra ↔
      ¬ ((∃ i, Selects result candidates.candidates.length i) ∧ (Dict.get result "confidence").Unhashable) := by
  refine ⟨fun h => ?_, interprets_of_hashable hextra⟩
  rintro ⟨hselects, hunhashable⟩
  obtain ⟨out, hout⟩ := h.returns
  rw [interpret_raises hselects hunhashable] at hout
  cases hout

/-- Whatever v1 makes of a tool input carries the reasoning. -/
theorem analyzeV1_reasoning {usage : Option Json} {out : AnalyzerOutput} (hne : candidates.candidates ≠ [])
    (h : analyzeV1 repr candidates minConfidence (.data result usage) = .ok out) :
    Dict.get out.signals "reasoning" = .str (reasoningOf result) := by
  unfold analyzeV1 at h
  rw [if_neg hne] at h
  replace h : interpret repr result candidates minConfidence (v1Signals result usage) = .ok out := h
  have hinterprets : Interprets repr result candidates minConfidence (v1Signals result usage) := by
    refine interprets_of_hashable (v1Signals_fresh _ _) ?_
    rintro ⟨hselects, hunhashable⟩
    rw [interpret_raises hselects hunhashable] at h
    cases h
  have hkey : Dict.contains (v1Signals result usage) "reasoning" = true := rfl
  rw [(hinterprets.signals out h "reasoning" hkey).2]
  cases usage <;> rfl

def oneMarket : MarketCandidates := ⟨"n1", ["m1"]⟩

def toolInput (confidence : Json) : Dict :=
  [("selected_index", .int 1), ("p_yes", .float (.fin (7 / 10))), ("confidence", confidence)]

theorem interprets_iff_sample :
    Interprets (fun _ => "") (toolInput (.str "high")) oneMarket .medium
      (v1Signals (toolInput (.str "high")) none) := by
  refine (interprets_iff _ _ _ _ (v1Signals_fresh _ _)).mpr ?_
  rintro ⟨-, ⟨xs, hxs⟩ | ⟨d, hd⟩⟩
  · cases hxs
  · cases hd

theorem list_confidence_raises :
    interpret (fun _ => "") (toolInput (.arr [.str "high"])) oneMarket .low [] = .error .typeError ∧
      ¬ Interprets (fun _ => "") (toolInput (.arr [.str "high"])) oneMarket .low [] := by
  have hraises : interpret (fun _ => "") (toolInput (.arr [.str "high"])) oneMarket .low [] = .error .typeError :=
    interpret_raises ⟨1, rfl, by decide, by decide⟩ (.inl ⟨_, rfl⟩)
  refine ⟨hraises, fun h => ?_⟩
  obtain ⟨out, hout⟩ := h.returns
  rw [hraises] at hout
  cases hout

end OpenPoly
