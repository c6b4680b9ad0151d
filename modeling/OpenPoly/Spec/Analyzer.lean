import OpenPoly.Spec.Entry
import OpenPoly.Spec.Orchestrator

/-! The LLM analyzer: what a `submit_analysis` result is taken for. Both versions share
`_interpret`. -/

namespace OpenPoly

/-- The shortlist: the news item and the markets, best first. -/
structure MarketCandidates where
  newsId : String
  candidates : List String

/-- `SectionOutput`. -/
structure AnalyzerOutput where
  payload : Option AnalysisResult
  verdict : Verdict
  reason : Option String := none
  signals : Dict

def Confidence.rank : Confidence → ℕ
  | .low => 0
  | .medium => 1
  | .high => 2

/-- The level of a text that is in `_CONFIDENCE_RANK`. -/
def Confidence.ofText (s : String) : Option Confidence :=
  [Confidence.low, .medium, .high].find? fun level => level.name = s

def NewsDirection.ofText (s : String) : Option NewsDirection :=
  [NewsDirection.raisesYes, .lowersYes, .unclear].find? fun direction => direction.name = s

/-- `confidence not in _CONFIDENCE_RANK` hashes the value, which a list or an object has
no hash for. -/
def confidenceOf : Json → Except PyErr (Option Confidence)
  | .str s => .ok (Confidence.ofText s)
  | .arr _ => .error .typeError
  | .obj _ => .error .typeError
  | _ => .ok none

/-- `direction if direction in _NEWS_DIRECTIONS else None`, by equality. -/
def newsDirectionOf : Json → Option NewsDirection
  | .str s => NewsDirection.ofText s
  | _ => none

def selectedIndex (n : ℕ) : Json → Option ℕ
  | .int i => if 1 ≤ i ∧ i ≤ n then some (i.toNat - 1) else none
  | _ => none

/-- A JSON number in [0, 1], as a float. -/
def probabilityOf : Json → Option ℚ
  | .int i => if 0 ≤ i ∧ i ≤ 1 then some i else none
  | .float (.fin q) => if 0 ≤ q ∧ q ≤ 1 then some q else none
  | _ => none

def floatOrNone : Option ℚ → Json
  | some q => .float (.fin q)
  | none => .null

/-- `_interpret`. Of two entries for one key of the signals the later counts. `repr` is
the text of floats and containers. -/
def interpret (repr : Json → String) (result : Dict) (candidates : MarketCandidates)
    (minConfidence : Confidence) (extra : Dict) : Except PyErr AnalyzerOutput := do
  let cands := candidates.candidates
  let idx := Dict.get result "selected_index"
  match (selectedIndex cands.length idx).bind fun i => cands[i]? with
  | none =>
    return {
      payload := none
      verdict := .skip
      reason := some "no actionable market"
      signals := extra ++ [("selected_index", idx)] }
  | some marketId =>
    let confidence := Dict.get result "confidence"
    match ← confidenceOf confidence with
    | none =>
      return {
        payload := none
        verdict := .error
        reason := some ("malformed confidence: " ++ repr confidence)
        signals := extra }
    | some level =>
      let pYes := Dict.get result "p_yes"
      if level.rank < minConfidence.rank then
        return {
          payload := none
          verdict := .skip
          reason := some "below min_confidence"
          signals := extra ++ [
            ("selected_index", idx),
            ("market_id", .str marketId),
            ("p_yes", floatOrNone (probabilityOf pYes)),
            ("confidence", confidence)] }
      match probabilityOf pYes with
      | none =>
        return {
          payload := none
          verdict := .error
          reason := some ("malformed p_yes: " ++ repr pYes)
          signals := extra }
      | some p =>
        let newsDirection := newsDirectionOf (Dict.get result "news_direction")
        let rationale := if Dict.contains result "rationale" then Dict.get result "rationale" else .str ""
        return {
          payload := some {
            marketId := marketId
            pModel := p
            confidence := level
            rationale := rationale.text repr
            newsDirection := newsDirection }
          verdict := .ok
          signals := extra ++ [
            ("news_id", .str candidates.newsId),
            ("selected_index", idx),
            ("confidence", confidence),
            ("news_direction", match newsDirection with | some d => .str d.name | none => .null),
            ("candidate_count", .int cands.length)] }

/-- What the client's call came to: the tool input with its usage, or an `LLMError` with
its text and usage. -/
inductive LLMAnswer where
  | data (result : Dict) (usage : Option Json)
  | failed (text : String) (usage : Option Json)

def usageSignal : Option Json → Dict
  | some usage => [("llm_usage", usage)]
  | none => []

/-- `reasoning` of the tool input, stripped. -/
def reasoningOf (result : Dict) : String :=
  match Dict.get result "reasoning" with
  | .str s => pyStrip s
  | _ => ""

def v1Signals (result : Dict) (usage : Option Json) : Dict :=
  ("reasoning", .str (reasoningOf result)) :: usageSignal usage

def noCandidates : AnalyzerOutput where
  payload := none
  verdict := .skip
  reason := some "no market candidates"
  signals := []

/-- `LLMAnalyzerV0.run`. -/
def analyzeV0 (repr : Json → String) (candidates : MarketCandidates) (minConfidence : Confidence)
    (answer : LLMAnswer) : Except PyErr AnalyzerOutput :=
  if candidates.candidates = [] then .ok noCandidates
  else
    match answer with
    | .failed text _ =>
      .ok { payload := none, verdict := .error, reason := some (String.ofList (text.toList.take 200)), signals := [] }
    | .data result _ => interpret repr result candidates minConfidence []

/-- `LLMAnalyzerV1.run`. -/
def analyzeV1 (repr : Json → String) (candidates : MarketCandidates) (minConfidence : Confidence)
    (answer : LLMAnswer) : Except PyErr AnalyzerOutput :=
  if candidates.candidates = [] then .ok noCandidates
  else
    match answer with
    | .failed text usage =>
      .ok {
        payload := none
        verdict := .error
        reason := some (String.ofList (text.toList.take 200))
        signals := usageSignal usage }
    | .data result usage => interpret repr result candidates minConfidence (v1Signals result usage)

end OpenPoly
