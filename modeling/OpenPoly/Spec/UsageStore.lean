import OpenPoly.Spec.LLMClient
import OpenPoly.Spec.Pipeline

/-! `UsageStore`: one row of `llm_usage` for each analyzer call that spent tokens, and
`usage_totals` over three windows of them. -/

namespace OpenPoly

structure LLMUsageRow where
  ts : ℚ
  newsId : PyStr
  model : String
  verdict : SectionVerdict
  inputTokens : ℤ
  outputTokens : ℤ
  cacheReadInputTokens : ℤ
  cacheCreationInputTokens : ℤ
  attempts : ℤ
  costUsd : Option ℚ

/-- The column of a float, NULL for one that is none or no number. -/
def costColumn : Option PyFloat → Option ℚ
  | some (.fin q) => some q
  | _ => none

/-- The row `record` adds. `repr` is the text of floats and containers. -/
def UsageRecord.row (repr : Json → String) (r : UsageRecord) : Except PyErr LLMUsageRow := do
  let count (key : String) : ℤ := (intOr (Dict.get r.usage key)).getD 0
  let model := Dict.get r.usage "model"
  let costUsd ← costOrNone (Dict.get r.usage "cost_usd")
  return {
    ts := r.ts
    newsId := r.newsId
    model := if model.truthy then model.text repr else ""
    verdict := r.verdict
    inputTokens := count "input_tokens"
    outputTokens := count "output_tokens"
    cacheReadInputTokens := count "cache_read_input_tokens"
    cacheCreationInputTokens := count "cache_creation_input_tokens"
    attempts := if count "attempts" = 0 then 1 else count "attempts"
    costUsd := costColumn costUsd }

structure UsageTotals where
  calls : ℕ
  inputTokens : ℤ
  outputTokens : ℤ
  cacheReadInputTokens : ℤ
  cacheCreationInputTokens : ℤ
  costUsd : ℚ
  unpricedCalls : ℕ
  deriving DecidableEq

/-- The seven aggregates over the rows a filter lets through. -/
def aggregates (rows : List LLMUsageRow) (cond : LLMUsageRow → Bool) : UsageTotals :=
  let rows := rows.filter cond
  { calls := rows.length
    inputTokens := (rows.map LLMUsageRow.inputTokens).sum
    outputTokens := (rows.map LLMUsageRow.outputTokens).sum
    cacheReadInputTokens := (rows.map LLMUsageRow.cacheReadInputTokens).sum
    cacheCreationInputTokens := (rows.map LLMUsageRow.cacheCreationInputTokens).sum
    costUsd := (rows.filterMap LLMUsageRow.costUsd).sum
    unpricedCalls := rows.countP fun row => row.costUsd.isNone }

def dayStart (now : ℚ) : ℚ := ⌊now / 86400⌋ * 86400

def weekSeconds : ℚ := 7 * 86400

structure UsageWindows where
  today : UsageTotals
  last7Days : UsageTotals
  allTime : UsageTotals

/-- `usage_totals`: the first two windows over the rows since the week's start. -/
def usageTotals (rows : List LLMUsageRow) (now : ℚ) : UsageWindows :=
  let weekStart := now - weekSeconds
  let windowed := rows.filter fun row => weekStart ≤ row.ts
  { today := aggregates windowed fun row => dayStart now ≤ row.ts
    last7Days := aggregates windowed fun _ => true
    allTime := aggregates rows fun _ => true }

def AnalyzerOutput.answer : Except PyErr AnalyzerOutput → SectionAnswer AnalysisResult
  | .error exc => .raised exc.name
  | .ok out => .returned {
      payload := out.payload
      verdict := match out.verdict with
        | .ok => .ok
        | .skip => .skip
        | .error => .error
      reason := out.reason
      signals := out.signals }

end OpenPoly
