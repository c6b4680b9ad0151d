import OpenPoly.Proofs.Analyzer
import OpenPoly.Proofs.LLMClient
import OpenPoly.Spec.UsageStore

/-! The tokens of every response reach the usage table and its totals: from the client's
retries through the analyzer's signal and the worker's record to the rows. -/

namespace OpenPoly

/-- One call of the v1 analyzer on a shortlist that is not empty. -/
structure AnalyzerUse where
  settings : LLMSettings
  keyError : Option String
  system : String
  user : String
  tool : ToolDefinition
  maxTokens : ℕ
  answer : ℕ → LLMRequest → Except String LLMResponse
  candidates : MarketCandidates
  nonempty : candidates.candidates ≠ []
  minConfidence : Confidence
  ts : ℚ
  newsId : PyStr

namespace AnalyzerUse

def exchange (x : AnalyzerUse) : Exchange × LLMOutcome :=
  x.settings.analyzeDetailed x.keyError x.system x.user x.tool x.maxTokens x.answer

def responses (x : AnalyzerUse) : List LLMResponse := Exchange.responses x.exchange.1

def usage (x : AnalyzerUse) : LLMUsage := LLMUsage.spent { model := x.settings.model } x.responses

def output (repr : Json → String) (x : AnalyzerUse) : Except PyErr AnalyzerOutput :=
  analyzeV1 repr x.candidates x.minConfidence x.exchange.2.answer

/-- The record the worker hands to the store, where there is one. -/
def record (repr : Json → String) (x : AnalyzerUse) : Option UsageRecord :=
  let answer := AnalyzerOutput.answer (x.output repr)
  answer.usage.map fun usage => ⟨usage, x.ts, x.newsId, answer.verdict⟩

end AnalyzerUse

variable {repr : Json → String} {x : AnalyzerUse} {out : AnalyzerOutput}

def PipelineEffect.usage? {ι : Type} : PipelineEffect ι → Option UsageRecord
  | .usage record => some record
  | _ => none

theorem shadowEffects_usage {ι : Type} {bookSource : Bool} {catalog : Catalog} {item : NewsItem} {ts : ℚ}
    {pick : SkippedPick} :
    (shadowEffects bookSource catalog item ts pick : List (PipelineEffect ι)).filterMap PipelineEffect.usage? = [] := by
  unfold shadowEffects
  split
  · next marketId _ confidence _ _ _ =>
    by_cases hblank : marketId = "" ∨ confidence = ""
    · rw [if_pos hblank]
      rfl
    · rw [if_neg hblank]
      rfl
  · rfl

/-- That record is the one the worker's bookkeeping makes. -/
theorem record_bookkeeping {ι : Type} (setup : PipelineSetup ι) (catalog : Catalog) {item : NewsItem}
    (pick : SkippedPick) (hitem : item.id = x.newsId) :
    (bookkeeping setup catalog item x.ts (AnalyzerOutput.answer (x.output repr)) pick).filterMap
      PipelineEffect.usage? = (x.record repr).toList := by
  have hrecord : ∀ answer : SectionAnswer AnalysisResult,
      ((answer.usage.map fun usage => (.usage ⟨usage, x.ts, item.id, answer.verdict⟩ : PipelineEffect ι)).toList).filterMap
        PipelineEffect.usage? = (answer.usage.map fun usage => ⟨usage, x.ts, x.newsId, answer.verdict⟩).toList := by
    intro answer
    cases answer.usage with
    | none => rfl
    | some usage => simp [PipelineEffect.usage?, hitem]
  unfold bookkeeping AnalyzerUse.record
  dsimp only
  rw [List.filterMap_append, hrecord]
  cases AnalyzerOutput.answer (x.output repr) with
  | raised text => exact List.append_nil _
  | returned out =>
    by_cases hskip : out.verdict = .skip ∧ out.reason = some "below min_confidence"
    · dsimp only
      rw [if_pos hskip, shadowEffects_usage, List.append_nil]
    · dsimp only
      rw [if_neg hskip]
      exact List.append_nil _

/-- The tool input was taken, and names a candidate with a level that has no hash. -/
def AnalyzerUse.Misread (x : AnalyzerUse) : Prop :=
  ∃ data usage, x.exchange.2 = .result data usage ∧
    (∃ i, Selects data x.candidates.candidates.length i) ∧ (Dict.get data "confidence").Unhashable

theorem AnalyzerUse.settles (x : AnalyzerUse) :
    CallSettles x.tool { model := x.settings.model } x.exchange.1 x.exchange.2 :=
  (analyze_spec x.settings x.keyError x.system x.user x.tool x.maxTokens x.answer).2.2

theorem AnalyzerUse.attempts (x : AnalyzerUse) : x.usage.attempts = x.responses.length :=
  (spent_attempts _ _).trans (Nat.zero_add _)

theorem responses_of_result {data : Dict} {u : LLMUsage} (h : x.exchange.2 = .result data u) :
    x.responses ≠ [] ∧ u = x.usage := by
  obtain ⟨hu, before, request, r, hcalls, -, -⟩ := x.settles.answered data u h
  refine ⟨?_, hu⟩
  rw [AnalyzerUse.responses, hcalls, Exchange.responses, List.filterMap_append]
  simp

/-- The signal of an output is the usage, where there was a response. -/
theorem signal_of_output (h : x.output repr = .ok out) :
    Dict.get out.signals "llm_usage" = if x.responses = [] then .null else .obj x.usage.toDict := by
  unfold AnalyzerUse.output analyzeV1 at h
  rw [if_neg x.nonempty] at h
  cases houtcome : x.exchange.2 with
  | result data u =>
    obtain ⟨hne, rfl⟩ := responses_of_result houtcome
    rw [houtcome] at h
    replace h : interpret repr data x.candidates x.minConfidence
        (v1Signals data (some (.obj x.usage.toDict))) = .ok out := h
    have hinterprets : Interprets repr data x.candidates x.minConfidence
        (v1Signals data (some (.obj x.usage.toDict))) := by
      refine interprets_of_hashable (v1Signals_fresh _ _) ?_
      rintro ⟨hselects, hunhashable⟩
      rw [interpret_raises hselects hunhashable] at h
      cases h
    rw [(hinterprets.signals out h "llm_usage" rfl).2, if_neg hne]
    rfl
  | failed message u =>
    obtain ⟨hu, -⟩ := x.settles.failed message u houtcome
    rw [houtcome] at h
    replace hu : u = if x.usage.attempts = 0 then none else some x.usage := hu
    rw [x.attempts] at hu
    have hout : out.signals = usageSignal (u.map fun u => .obj u.toDict) := by
      cases h
      rfl
    rw [hout, hu]
    by_cases hne : x.responses = []
    · rw [if_pos hne, if_pos (by rw [hne]; rfl)]
      rfl
    · rw [if_neg hne, if_neg (by simpa using hne)]
      rfl

/-- The section raises exactly on a misread tool input. -/
theorem output_error_iff : (x.output repr).isOk = false ↔ x.Misread := by
  unfold AnalyzerUse.output analyzeV1
  rw [if_neg x.nonempty]
  cases houtcome : x.exchange.2 with
  | failed message u =>
    refine iff_of_false (by simp [LLMOutcome.answer, Except.isOk, Except.toBool]) ?_
    rintro ⟨data, u, h, -⟩
    rw [houtcome] at h
    cases h
  | result data u =>
    constructor
    · intro h
      by_contra hread
      have hinterprets : Interprets repr data x.candidates x.minConfidence
          (v1Signals data (some (.obj u.toDict))) :=
        interprets_of_hashable (v1Signals_fresh _ _) fun hbad => hread ⟨data, u, houtcome, hbad⟩
      obtain ⟨out, hout⟩ := hinterprets.returns
      replace h : (interpret repr data x.candidates x.minConfidence
        (v1Signals data (some (.obj u.toDict)))).isOk = false := h
      rw [hout] at h
      cases h
    · rintro ⟨data', u', h, hselects, hunhashable⟩
      rw [houtcome] at h
      cases h
      show (interpret repr data x.candidates x.minConfidence
        (v1Signals data (some (.obj u.toDict)))).isOk = false
      rw [interpret_raises hselects hunhashable]
      rfl

/-- The row of a call that got a response and an output. -/
def AnalyzerUse.row (repr : Json → String) (x : AnalyzerUse) : LLMUsageRow where
  ts := x.ts
  newsId := x.newsId
  model := x.settings.model
  verdict := (AnalyzerOutput.answer (x.output repr)).verdict
  inputTokens := x.usage.inputTokens
  outputTokens := x.usage.outputTokens
  cacheReadInputTokens := x.usage.cacheReadInputTokens
  cacheCreationInputTokens := x.usage.cacheCreationInputTokens
  attempts := x.responses.length
  costUsd := x.usage.costUsd

/-- Recorded is the usage of a call that got a response, unless its answer was misread. -/
def AnalyzerUse.recorded (repr : Json → String) (x : AnalyzerUse) : Bool :=
  (x.output repr).isOk && !x.responses.isEmpty

theorem record_eq (repr : Json → String) (x : AnalyzerUse) :
    x.record repr =
      if x.recorded repr then
        some ⟨x.usage.toDict, x.ts, x.newsId, (AnalyzerOutput.answer (x.output repr)).verdict⟩
      else none := by
  unfold AnalyzerUse.record AnalyzerUse.recorded
  cases hout : x.output repr with
  | error exc => rfl
  | ok out =>
    have hsignal := signal_of_output hout
    have husage : (AnalyzerOutput.answer (.ok out)).usage =
        if x.responses = [] then none else some x.usage.toDict := by
      have hsignals : (AnalyzerOutput.answer (.ok out)).signals = out.signals := rfl
      unfold SectionAnswer.usage
      rw [hsignals, hsignal]
      by_cases hne : x.responses = []
      · rw [if_pos hne, if_pos hne]
      · rw [if_neg hne, if_neg hne]
    dsimp only
    rw [husage]
    by_cases hne : x.responses = []
    · simp [hne]
    · simp [hne, Except.isOk, Except.toBool]

theorem costColumn_floatOrNone (cost : Option ℚ) :
    (costOrNone (floatOrNone cost)).map costColumn = .ok cost := by
  cases cost <;> rfl

/-- What the signal says under each key. -/
theorem toDict_get (u : LLMUsage) :
    Dict.get u.toDict "model" = .str u.model ∧ Dict.get u.toDict "input_tokens" = .int u.inputTokens ∧
      Dict.get u.toDict "output_tokens" = .int u.outputTokens ∧
      Dict.get u.toDict "cache_read_input_tokens" = .int u.cacheReadInputTokens ∧
      Dict.get u.toDict "cache_creation_input_tokens" = .int u.cacheCreationInputTokens ∧
      Dict.get u.toDict "attempts" = .int u.attempts ∧
      Dict.get u.toDict "cost_usd" = floatOrNone u.costUsd := by
  simp [Dict.get, LLMUsage.toDict]

theorem row_of_recorded (h : x.recorded repr = true) :
    UsageRecord.row repr ⟨x.usage.toDict, x.ts, x.newsId, (AnalyzerOutput.answer (x.output repr)).verdict⟩ =
      .ok (x.row repr) := by
  have hne : x.responses.length ≠ 0 := by
    have : x.responses ≠ [] := by
      intro hnil
      simp [AnalyzerUse.recorded, hnil] at h
    simpa using this
  have hmodel : x.usage.model = x.settings.model := spent_model _ _
  have hcost := costColumn_floatOrNone x.usage.costUsd
  cases hc : costOrNone (floatOrNone x.usage.costUsd) with
  | error exc =>
    rw [hc] at hcost
    cases hcost
  | ok cost =>
    rw [hc] at hcost
    have hcolumn : costColumn cost = x.usage.costUsd := Except.ok.inj hcost
    obtain ⟨hname, hin, hout, hread, hcreate, hattempts, hget⟩ := toDict_get x.usage
    have hshown : (if (Json.str x.usage.model).truthy = true then Json.text repr (.str x.usage.model) else "") =
        x.settings.model := by
      rw [hmodel]
      by_cases hempty : x.settings.model = ""
      · simp [Json.truthy, hempty]
      · simp [Json.truthy, Json.text, hempty]
    have hcount : ((x.responses.length : ℕ) : ℤ) ≠ 0 := by exact_mod_cast hne
    unfold UsageRecord.row
    simp only [hget, hc, hattempts, hname, hin, hout, hread, hcreate, hshown, bind, Except.bind, pure,
      Except.pure, intOr, Option.getD_some, hcolumn, x.attempts, if_neg hcount]
    rfl

theorem mapM_map_ok {α β γ : Type} {f : α → β} {g : β → Except PyErr γ} {k : α → γ} {l : List α}
    (h : ∀ a ∈ l, g (f a) = .ok (k a)) : (l.map f).mapM g = .ok (l.map k) := by
  induction l with
  | nil => rfl
  | cons a l ih =>
    rw [List.map_cons, List.mapM_cons, h a List.mem_cons_self, ih fun b hb => h b (List.mem_cons_of_mem _ hb)]
    rfl

theorem filterMap_record (repr : Json → String) (xs : List AnalyzerUse) :
    xs.filterMap (AnalyzerUse.record repr) = (xs.filter (AnalyzerUse.recorded repr)).map fun x =>
      ⟨x.usage.toDict, x.ts, x.newsId, (AnalyzerOutput.answer (x.output repr)).verdict⟩ := by
  induction xs with
  | nil => rfl
  | cons x xs ih =>
    rw [List.filterMap_cons, record_eq, ih, List.filter_cons]
    by_cases h : x.recorded repr = true
    · simp [h]
    · simp [h]

/-- The rows of a list of calls. -/
theorem rows_of_uses (repr : Json → String) (xs : List AnalyzerUse) :
    (xs.filterMap (AnalyzerUse.record repr)).mapM (UsageRecord.row repr) =
      .ok ((xs.filter (AnalyzerUse.recorded repr)).map (AnalyzerUse.row repr)) := by
  rw [filterMap_record]
  exact mapM_map_ok fun x hx => row_of_recorded (List.mem_filter.mp hx).2

/-- A count over the rows is the sum over the responses of the calls not misread. -/
theorem sum_rows (repr : Json → String) (xs : List AnalyzerUse) {column : LLMUsageRow → ℤ}
    {field : ResponseUsage → Option ℤ}
    (h : ∀ x : AnalyzerUse, column (x.row repr) = (x.responses.map fun r => (field r.usage).getD 0).sum) :
    (((xs.filter (AnalyzerUse.recorded repr)).map (AnalyzerUse.row repr)).map column).sum =
      (((xs.filter fun x => (x.output repr).isOk).flatMap AnalyzerUse.responses).map fun r =>
        (field r.usage).getD 0).sum := by
  induction xs with
  | nil => rfl
  | cons x xs ih =>
    by_cases hok : (x.output repr).isOk = true
    · rw [List.filter_cons_of_pos (p := fun x : AnalyzerUse => (x.output repr).isOk) hok, List.flatMap_cons,
        List.map_append, List.sum_append, ← ih]
      by_cases hne : x.responses = []
      · rw [List.filter_cons_of_neg (by simp [AnalyzerUse.recorded, hne]), hne]
        simp
      · rw [List.filter_cons_of_pos (by simp [AnalyzerUse.recorded, hok, hne]), List.map_cons, List.map_cons,
          List.sum_cons, h]
    · rw [List.filter_cons_of_neg (p := fun x : AnalyzerUse => (x.output repr).isOk) hok, ← ih,
        List.filter_cons_of_neg (by simp [AnalyzerUse.recorded, hok])]

theorem aggregates_true (rows : List LLMUsageRow) (cond : LLMUsageRow → Bool) :
    aggregates (rows.filter cond) (fun _ => true) = aggregates rows cond := by
  unfold aggregates
  simp

/-- What the totals of a set of rows say about the calls the rows are of: the tokens of all
their responses, the price of those whose model has one, and how many have none. -/
structure TotalsOf (repr : Json → String) (xs : List AnalyzerUse) (t : UsageTotals) : Prop where
  calls : t.calls = (xs.filter (AnalyzerUse.recorded repr)).length
  inputTokens : t.inputTokens =
    (((xs.filter fun x => (x.output repr).isOk).flatMap AnalyzerUse.responses).map fun r =>
      r.usage.inputTokens.getD 0).sum
  outputTokens : t.outputTokens =
    (((xs.filter fun x => (x.output repr).isOk).flatMap AnalyzerUse.responses).map fun r =>
      r.usage.outputTokens.getD 0).sum
  cacheReadInputTokens : t.cacheReadInputTokens =
    (((xs.filter fun x => (x.output repr).isOk).flatMap AnalyzerUse.responses).map fun r =>
      r.usage.cacheReadInputTokens.getD 0).sum
  cacheCreationInputTokens : t.cacheCreationInputTokens =
    (((xs.filter fun x => (x.output repr).isOk).flatMap AnalyzerUse.responses).map fun r =>
      r.usage.cacheCreationInputTokens.getD 0).sum
  costUsd : t.costUsd = ((xs.filter (AnalyzerUse.recorded repr)).filterMap fun x => x.usage.costUsd).sum
  unpricedCalls : t.unpricedCalls =
    (xs.filter (AnalyzerUse.recorded repr)).countP fun x => (modelPrice x.settings.model).isNone

theorem usage_counts (x : AnalyzerUse) :
    x.usage.inputTokens = (x.responses.map fun r => r.usage.inputTokens.getD 0).sum ∧
      x.usage.outputTokens = (x.responses.map fun r => r.usage.outputTokens.getD 0).sum ∧
      x.usage.cacheReadInputTokens = (x.responses.map fun r => r.usage.cacheReadInputTokens.getD 0).sum ∧
      x.usage.cacheCreationInputTokens =
        (x.responses.map fun r => r.usage.cacheCreationInputTokens.getD 0).sum := by
  simpa [AnalyzerUse.usage] using spent_counts { model := x.settings.model } x.responses

theorem row_cost (repr : Json → String) (x : AnalyzerUse) : (x.row repr).costUsd = x.usage.costUsd := by
  unfold AnalyzerUse.row
  dsimp only

theorem row_unpriced (repr : Json → String) (x : AnalyzerUse) :
    (x.row repr).costUsd.isNone = (modelPrice x.settings.model).isNone := by
  have hmodel : x.usage.model = x.settings.model := spent_model _ _
  rw [row_cost, LLMUsage.costUsd, hmodel, Option.isNone_map]

theorem totals_of_rows (repr : Json → String) (xs : List AnalyzerUse) :
    TotalsOf repr xs (aggregates ((xs.filter (AnalyzerUse.recorded repr)).map (AnalyzerUse.row repr)) fun _ => true) := by
  unfold aggregates
  rw [List.filter_true]
  have hin := fun x => (usage_counts x).1
  have hout := fun x => (usage_counts x).2.1
  have hread := fun x => (usage_counts x).2.2.1
  have hcreate := fun x => (usage_counts x).2.2.2
  refine ⟨List.length_map _, sum_rows repr xs hin, sum_rows repr xs hout, sum_rows repr xs hread,
    sum_rows repr xs hcreate, ?_, ?_⟩
  · dsimp only
    have hcosts : LLMUsageRow.costUsd ∘ AnalyzerUse.row repr = fun x => x.usage.costUsd :=
      funext (row_cost repr)
    rw [List.filterMap_map, hcosts]
  · dsimp only
    rw [List.countP_map]
    refine List.countP_congr fun x _ => ?_
    rw [Function.comp_apply, row_unpriced]

/-- Today started within the week, so the windowed query loses none of its rows. -/
theorem usageTotals_windows (rows : List LLMUsageRow) (now : ℚ) :
    (usageTotals rows now).today = aggregates rows (fun row => dayStart now ≤ row.ts) ∧
      (usageTotals rows now).last7Days = aggregates rows (fun row => now - weekSeconds ≤ row.ts) ∧
      (usageTotals rows now).allTime = aggregates rows fun _ => true := by
  have hday : now - weekSeconds ≤ dayStart now := by
    have hfloor : now / 86400 < ⌊now / 86400⌋ + 1 := Int.lt_floor_add_one _
    rw [div_lt_iff₀ (by norm_num)] at hfloor
    unfold dayStart weekSeconds
    linarith
  refine ⟨?_, aggregates_true _ _, rfl⟩
  show aggregates (rows.filter _) _ = _
  unfold aggregates
  rw [List.filter_filter]
  have hsame : ∀ row : LLMUsageRow,
      (decide (dayStart now ≤ row.ts) && decide (now - weekSeconds ≤ row.ts)) = decide (dayStart now ≤ row.ts) := by
    intro row
    by_cases h : dayStart now ≤ row.ts
    · simp [h, hday.trans h]
    · simp [h]
  simp only [hsame]

/-- The usage table after a list of analyzer calls. Each window's totals are, over the calls
in it, the tokens of every response received, retries and failed calls included; only a
call whose answer the section could not read is missing, and no other. -/
theorem usage_ledger (repr : Json → String) (xs : List AnalyzerUse) (now : ℚ) :
    ∃ rows, (xs.filterMap (AnalyzerUse.record repr)).mapM (UsageRecord.row repr) = .ok rows ∧
      TotalsOf repr (xs.filter fun x => dayStart now ≤ x.ts) (usageTotals rows now).today ∧
      TotalsOf repr (xs.filter fun x => now - weekSeconds ≤ x.ts) (usageTotals rows now).last7Days ∧
      TotalsOf repr xs (usageTotals rows now).allTime ∧
      ∀ x : AnalyzerUse, (x.output repr).isOk = false ↔ x.Misread := by
  obtain ⟨htoday, hweek, hall⟩ :=
    usageTotals_windows ((xs.filter (AnalyzerUse.recorded repr)).map (AnalyzerUse.row repr)) now
  have hwindow : ∀ start : ℚ,
      aggregates ((xs.filter (AnalyzerUse.recorded repr)).map (AnalyzerUse.row repr)) (fun row => start ≤ row.ts) =
        aggregates (((xs.filter fun x => start ≤ x.ts).filter (AnalyzerUse.recorded repr)).map (AnalyzerUse.row repr))
          fun _ => true := by
    intro start
    rw [← aggregates_true, List.filter_map, List.filter_filter, List.filter_filter]
    congr 2
    refine List.filter_congr fun x _ => ?_
    exact Bool.and_comm _ _
  refine ⟨_, rows_of_uses repr xs, ?_, ?_, ?_, fun x => output_error_iff⟩
  · rw [htoday, hwindow]
    exact totals_of_rows repr _
  · rw [hweek, hwindow]
    exact totals_of_rows repr _
  · rw [hall]
    exact totals_of_rows repr xs

/-- A call of the analyzer whose first response is cut off. -/
def cutUse (model : String) (last : Except String LLMResponse) (ts : ℚ) : AnalyzerUse where
  settings := ⟨model, 0, none⟩
  keyError := none
  system := ""
  user := ""
  tool := analysisTool
  maxTokens := 2048
  answer := afterCut last
  candidates := ⟨"n1", ["m1"]⟩
  nonempty := List.cons_ne_nil _ _
  minConfidence := .medium
  ts := ts
  newsId := PyStr.of "n1"

/-- Yesterday's call is answered by the retry; today's fails at it, and its model has no price. -/
def twoUses : List AnalyzerUse :=
  [cutUse "claude-haiku-4-5" (.ok fullResponse) 50000,
    cutUse "claude-opus-4-8" (.error "APIConnectionError()") 90000]

/-- All three responses are in the totals, and only the last one's in today's. -/
theorem usage_ledger_sample :
    ∃ rows, (twoUses.filterMap (AnalyzerUse.record fun _ => "")).mapM (UsageRecord.row fun _ => "") = .ok rows ∧
      (usageTotals rows 100000).allTime.calls = 2 ∧ (usageTotals rows 100000).allTime.inputTokens = 2700 ∧
      (usageTotals rows 100000).allTime.outputTokens = 6596 ∧
      (usageTotals rows 100000).allTime.unpricedCalls = 1 ∧
      (usageTotals rows 100000).today.calls = 1 ∧ (usageTotals rows 100000).today.outputTokens = 2048 := by
  obtain ⟨rows, hrows, htoday, -, hall, -⟩ := usage_ledger (fun _ => "") twoUses 100000
  refine ⟨rows, hrows, ?_, ?_, ?_, ?_, ?_, ?_⟩
  · rw [hall.calls]
    decide +kernel
  · rw [hall.inputTokens]
    decide +kernel
  · rw [hall.outputTokens]
    decide +kernel
  · rw [hall.unpricedCalls]
    decide +kernel
  · rw [htoday.calls]
    decide +kernel
  · rw [htoday.outputTokens]
    decide +kernel

end OpenPoly
