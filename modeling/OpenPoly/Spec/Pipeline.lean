import OpenPoly.Spec.Analyzer
import OpenPoly.Spec.News
import OpenPoly.Spec.SectionLog
import OpenPoly.Spec.Shadow

/-! `PipelineOrchestrator`: `_process` as it is written, one news item from its dequeue
to its last log row, and the worker that interleaves it with arrivals, section swaps
and shutdown. -/

namespace OpenPoly

/-- `SectionOutput`, with the payload where it is of the kind the next stage takes. -/
structure SectionOutput (α : Type) where
  payload : Option α
  verdict : SectionVerdict := .ok
  reason : Option String := none
  signals : Dict := []

/-- The output, or the `repr` of what was raised. -/
inductive SectionAnswer (α : Type) where
  | returned (out : SectionOutput α)
  | raised (text : String)

def clip (n : ℕ) (s : String) : String := String.ofList (s.toList.take n)

variable {α ι : Type}

def SectionAnswer.verdict : SectionAnswer α → SectionVerdict
  | .returned out => out.verdict
  | .raised _ => .error

def SectionAnswer.error : SectionAnswer α → Option String
  | .returned out => if out.verdict = .error then out.reason else none
  | .raised text => some (clip 200 text)

def SectionAnswer.payload : SectionAnswer α → Option α
  | .returned out => out.payload
  | .raised _ => none

def SectionAnswer.signals : SectionAnswer α → Dict
  | .returned out => out.signals
  | .raised _ => []

/-- What is handed on: the payload of an `ok` answer. -/
def SectionAnswer.forwarded (answer : SectionAnswer α) : Option α :=
  if answer.verdict = .ok then answer.payload else none

/-- The `MarketCandidates` of the pipeline: market ids and scores. -/
structure Shortlist where
  candidates : List (String × ℚ)
  best_first : candidates.Pairwise fun a b => b.2 ≤ a.2

structure EmbeddingCall where
  ts : ℚ
  newsId : PyStr
  newsContentPreview : PyStr
  urgency : PyStr
  verdict : SectionVerdict
  candidateCount : ℕ
  topMarketId : Option String
  topScore : Option ℚ
  catalogSize : ℤ
  latencyMs : ℕ
  error : Option String := none

/-- Why a call that is no error produced no signal. -/
inductive AnalyzerReason where
  | section (reason : String)
  /-- `stale_news (age ...s > ...s)`. -/
  | staleNews (age : PyFloat) (maxAge : ℚ)

structure AnalyzerCall where
  ts : ℚ
  newsId : PyStr
  newsContentPreview : PyStr
  urgency : PyStr
  verdict : SectionVerdict
  pModel : Option PyFloat
  confidence : Option String
  marketId : Option String
  latencyMs : ℕ
  error : Option String := none
  rationale : Option String := none
  reasoning : Option String := none
  reason : Option AnalyzerReason := none
  reasoningTruncated : Bool := false
  llmModel : Option String := none
  inputTokens : Option ℤ := none
  outputTokens : Option ℤ := none
  cacheReadInputTokens : Option ℤ := none
  cacheCreationInputTokens : Option ℤ := none
  llmAttempts : Option ℤ := none
  costUsd : Option PyFloat := none

inductive EntryFault where
  | section (reason : String)
  | raised (text : String)
  | execution (e : EntryError)

/-- `EntryDecision`, a row of the entry log. -/
structure EntryRow where
  ts : ℚ
  newsId : PyStr
  arPModel : ℚ
  arMarketId : String
  verdict : SectionVerdict
  side : Option Side
  qty : Option ℚ
  price : Option ℚ
  reason : Option String
  latencyMs : ℕ
  error : Option EntryFault := none
  fillStatus : Option FillStatus := none
  fillPrice : Option ℚ := none
  fillQty : Option ℚ := none
  positionId : Option ℕ := none
  bookAge : Option ℚ := none

instance : LogEntry EmbeddingCall := ⟨fun row => some row.verdict, EmbeddingCall.ts⟩
instance : LogEntry AnalyzerCall := ⟨fun row => some row.verdict, AnalyzerCall.ts⟩
instance : LogEntry EntryRow := ⟨fun row => some row.verdict, EntryRow.ts⟩

/-- `item.content[:80]`. -/
def NewsItem.preview (item : NewsItem) : PyStr := item.content.take 80

/-- `now - item.published_at`. -/
def NewsItem.age (item : NewsItem) (now : ℚ) : PyFloat :=
  match item.publishedAt with
  | .fin q => .fin (now - q)
  | .inf => .negInf
  | .negInf => .inf
  | .nan => .nan

/-- `age <= max_age`, which no NaN is. -/
def PyFloat.atMost (maxAge : ℚ) : PyFloat → Bool
  | .fin q => q ≤ maxAge
  | .negInf => true
  | .inf => false
  | .nan => false

/-- The row of `_news_is_stale`, where the item is skipped. -/
def staleNewsRow (item : NewsItem) (maxAge : Option ℚ) (now : ℚ) : Option AnalyzerCall :=
  maxAge.bind fun maxAge =>
    if (item.age now).atMost maxAge then none
    else some {
      ts := now
      newsId := item.id
      newsContentPreview := item.preview
      urgency := item.urgency
      verdict := .skip
      pModel := none
      confidence := none
      marketId := none
      latencyMs := 0
      reason := some (.staleNews (item.age now) maxAge) }

/-- `int(signals.get("catalog_size", 0) or 0)`. -/
def catalogSizeOf (signals : Dict) : Except PyErr ℤ :=
  let value := Dict.get signals "catalog_size"
  if value.truthy then pyInt value else .ok 0

/-- The row of `_run_embedding`. -/
def embeddingRow (item : NewsItem) (ts : ℚ) (answer : SectionAnswer Shortlist) (latencyMs : ℕ) :
    Except PyErr EmbeddingCall := do
  let catalogSize ← catalogSizeOf answer.signals
  let top := answer.payload.bind fun c => c.candidates.head?
  return {
    ts := ts
    newsId := item.id
    newsContentPreview := item.preview
    urgency := item.urgency
    verdict := answer.verdict
    candidateCount := (answer.payload.map fun c => c.candidates.length).getD 0
    topMarketId := top.map Prod.fst
    topScore := top.map Prod.snd
    catalogSize := catalogSize
    latencyMs := latencyMs
    error := answer.error }

def Json.str? : Json → Option String
  | .str s => some s
  | _ => none

def intOr : Json → Option ℤ
  | .int n => some n
  | _ => none

def costOrNone : Json → Except PyErr (Option PyFloat)
  | .bool b => (pyFloat (.bool b)).map some
  | .int n => (pyFloat (.int n)).map some
  | .float x => .ok (some x)
  | _ => .ok none

/-- A pick the analyzer made and did not act on. -/
structure SkippedPick where
  marketId : Option String := none
  pModel : Option PyFloat := none
  confidence : Option String := none

def skippedPick : SectionAnswer AnalysisResult → Except PyErr SkippedPick
  | .raised _ => .ok {}
  | .returned out => do
    let pModel ← match Dict.get out.signals "p_yes" with
      | .int n => (pyFloat (.int n)).map some
      | .float x => .ok (some x)
      | _ => .ok none
    return {
      marketId := (Dict.get out.signals "market_id").str?
      pModel := pModel
      confidence := (Dict.get out.signals "confidence").str? }

/-- `_usage_signal`, of what the section answered. -/
def SectionAnswer.usage (answer : SectionAnswer AnalysisResult) : Option Dict :=
  match Dict.get answer.signals "llm_usage" with
  | .obj usage => some usage
  | _ => none

def maxLoggedReasoningChars : ℕ := 2000

def SectionAnswer.reasoning (answer : SectionAnswer AnalysisResult) : Option String :=
  (Dict.get answer.signals "reasoning").str?.filter fun s => s ≠ ""

/-- `_usage_fields`. -/
def AnalyzerCall.withUsage (row : AnalyzerCall) : Option Dict → Except PyErr AnalyzerCall
  | none => .ok row
  | some usage => do
    let costUsd ← costOrNone (Dict.get usage "cost_usd")
    return { row with
      llmModel := (Dict.get usage "model").str?
      inputTokens := intOr (Dict.get usage "input_tokens")
      outputTokens := intOr (Dict.get usage "output_tokens")
      cacheReadInputTokens := intOr (Dict.get usage "cache_read_input_tokens")
      cacheCreationInputTokens := intOr (Dict.get usage "cache_creation_input_tokens")
      llmAttempts := intOr (Dict.get usage "attempts")
      costUsd := costUsd }

def loggedPick (answer : SectionAnswer AnalysisResult) : Except PyErr SkippedPick :=
  match answer.payload with
  | some _ => .ok {}
  | none => skippedPick answer

/-- The row of `_run_analyzer`. -/
def analyzerRow (item : NewsItem) (ts : ℚ) (answer : SectionAnswer AnalysisResult)
    (latencyMs : ℕ) : Except PyErr AnalyzerCall := do
  let pick ← loggedPick answer
  let row : AnalyzerCall := {
    ts := ts
    newsId := item.id
    newsContentPreview := item.preview
    urgency := item.urgency
    verdict := answer.verdict
    pModel := match answer.payload with
      | some ar => some (.fin ar.pModel)
      | none => pick.pModel
    confidence := match answer.payload with
      | some ar => some ar.confidence.name
      | none => pick.confidence
    marketId := match answer.payload with
      | some ar => some ar.marketId
      | none => pick.marketId
    latencyMs := latencyMs
    error := answer.error
    reason := match answer with
      | .returned out => if out.verdict = .error then none else out.reason.map .section
      | .raised _ => none
    rationale := answer.payload.map AnalysisResult.rationale
    reasoning := answer.reasoning.map (clip maxLoggedReasoningChars)
    reasoningTruncated := answer.reasoning.any fun s => maxLoggedReasoningChars < s.toList.length }
  row.withUsage answer.usage

/-- A usage record handed to `usage_store.record`. -/
structure UsageRecord where
  usage : Dict
  ts : ℚ
  newsId : PyStr
  verdict : SectionVerdict

/-- A pick handed to `shadow_store.record`. -/
structure ShadowRecord where
  ts : ℚ
  newsId : PyStr
  marketId : String
  pModel : PyFloat
  confidence : String
  quote : Option ShadowQuote

inductive PipelineSection where
  | embedding
  | analyzer
  | entry
  deriving DecidableEq

/-- What the worker does to the rest of the process for an item. -/
inductive PipelineEffect (ι : Type) where
  /-- A section's `run` is called on this instance. -/
  | run (s : PipelineSection) (inst : ι)
  | embeddingRow (row : EmbeddingCall)
  | analyzerRow (row : AnalyzerCall)
  | usage (record : UsageRecord)
  | shadow (record : ShadowRecord)
  | ensureFresh (tokens : List String) (maxAge : ℚ)
  /-- The entry section's `run` on the analysis, wrapped in `FreshBooks` where there
  are tokens. -/
  | decide (inst : ι) (ar : AnalysisResult) (freshTokens : Option (List String))
  | executeBuy (intent : OrderIntent) (newsId : PyStr) (ts : ℚ)
  | entryRow (row : EntryRow)

structure PipelineSetup (ι : Type) where
  sideLock : ι → Bool
  acceptsFreshBooks : ι → Bool
  /-- There is a `book_source`. -/
  bookSource : Bool
  maxBookAge : ℚ := 5
  queueMaxsize : ℤ := 100

/-- `_record_shadow_pick`. -/
def shadowEffects (bookSource : Bool) (catalog : Catalog) (item : NewsItem) (ts : ℚ)
    (pick : SkippedPick) : List (PipelineEffect ι) :=
  match pick.marketId, pick.pModel, pick.confidence with
  | some marketId, some pModel, some confidence =>
    if marketId = "" ∨ confidence = "" then []
    else
      let quote := match pModel with
        | .fin p => if bookSource then shadowQuote catalog marketId p else none
        | _ => none
      [.shadow ⟨ts, item.id, marketId, pModel, confidence, quote⟩]
  | _, _, _ => []

/-- The bookkeeping of `_run_analyzer` after its row. -/
def bookkeeping (setup : PipelineSetup ι) (catalog : Catalog) (item : NewsItem) (ts : ℚ)
    (answer : SectionAnswer AnalysisResult) (pick : SkippedPick) : List (PipelineEffect ι) :=
  (answer.usage.map fun usage => PipelineEffect.usage ⟨usage, ts, item.id, answer.verdict⟩).toList ++
    match answer with
    | .returned out =>
      if out.verdict = .skip ∧ out.reason = some "below min_confidence" then
        shadowEffects setup.bookSource catalog item ts pick
      else []
    | .raised _ => []

/-- The effects of `_run_analyzer` after the section's answer. -/
def analyzerEffects (setup : PipelineSetup ι) (catalog : Catalog) (item : NewsItem) (ts : ℚ)
    (answer : SectionAnswer AnalysisResult) (latencyMs : ℕ) : Except PyErr (List (PipelineEffect ι)) := do
  let row ← analyzerRow item ts answer latencyMs
  let pick ← loggedPick answer
  return .analyzerRow row :: bookkeeping setup catalog item ts answer pick

structure BookCheck where
  market : Market
  fresh : List (String × ℚ)
  oldest : Option ℚ

def entryTokens (setup : PipelineSetup ι) (inst : ι) (market : Market) : List String :=
  (candidateSides (setup.sideLock inst)).filterMap market.tokenFor

def checkedMarket (setup : PipelineSetup ι) (catalog : Catalog) (ar : AnalysisResult) :
    Option Market :=
  if setup.bookSource then catalog.markets ar.marketId else none

def olderOf (oldest age : Option ℚ) : Option ℚ :=
  match oldest, age with
  | some o, some a => some (if o < a then a else o)
  | none, age => age
  | oldest, none => oldest

/-- `_ensure_fresh_books`, on the ages `ensure_fresh` returned. -/
def bookCheck (market : Market) (tokens : List String) (maxAge : ℚ) (ages : String → Option ℚ) :
    BookCheck where
  market := market
  fresh := tokens.filterMap fun token =>
    ((ages token).filter fun age => age ≤ maxAge).map (token, ·)
  oldest := tokens.foldl (fun oldest token => olderOf oldest (ages token)) none

def BookCheck.ageOf (b : BookCheck) (token : String) : Option ℚ :=
  (b.fresh.find? fun entry => entry.1 = token).map Prod.snd

/-- What the entry section's answer amounts to. -/
structure EntryChoice where
  verdict : SectionVerdict
  reason : Option String
  error : Option EntryFault
  intent : Option OrderIntent
  bookAge : Option ℚ

def staleBook (bookAge : Option ℚ) : EntryChoice := ⟨.skip, some "stale_book", none, none, bookAge⟩

/-- The answer, before the chosen side's book is looked at. -/
def answeredChoice (bookAge : Option ℚ) : SectionAnswer OrderIntent → EntryChoice
  | .returned out => {
      verdict := out.verdict
      reason := out.reason
      error := if out.verdict = .error then out.reason.map .section else none
      intent := if out.verdict = .ok then out.payload else none
      bookAge := bookAge }
  | .raised text => ⟨.error, none, some (.raised (clip 200 text)), none, bookAge⟩

/-- The choice of `_run_entry`: an intent stands only where its side's book is fresh. -/
def entryChoice (books : Option BookCheck) (answer : SectionAnswer OrderIntent) : EntryChoice :=
  let choice := answeredChoice (books.bind BookCheck.oldest) answer
  match choice.intent, books with
  | some intent, some b =>
    match (b.market.tokenFor intent.side).bind b.ageOf with
    | some age => { choice with bookAge := some age }
    | none => staleBook b.oldest
  | _, _ => choice

/-- The row of `_run_entry`; `execution` is what the execution stage came to. -/
def entryRow (item : NewsItem) (ar : AnalysisResult) (ts : ℚ) (latencyMs : ℕ) (choice : EntryChoice)
    (execution : Option EntryDecision) : EntryRow where
  ts := ts
  newsId := item.id
  arPModel := ar.pModel
  arMarketId := ar.marketId
  verdict := match execution with
    | some e => if e.verdict = .error then .error else choice.verdict
    | none => choice.verdict
  side := choice.intent.map OrderIntent.side
  qty := choice.intent.map OrderIntent.qty
  price := choice.intent.map OrderIntent.price
  reason := choice.reason
  latencyMs := latencyMs
  error := match execution.bind EntryDecision.error with
    | some e => some (.execution e)
    | none => choice.error
  fillStatus := execution.bind EntryDecision.fillStatus
  fillPrice := execution.bind EntryDecision.fillPrice
  fillQty := execution.bind EntryDecision.fillQty
  positionId := execution.bind EntryDecision.positionId
  bookAge := choice.bookAge

def noFreshBook : Option BookCheck → Bool
  | some b => b.fresh.isEmpty
  | none => false

/-- The payload the entry section is handed: `FreshBooks` where it declares it takes them. -/
def freshTokens (setup : PipelineSetup ι) (inst : ι) (books : Option BookCheck) :
    Option (List String) :=
  if setup.acceptsFreshBooks inst then books.map fun b => b.fresh.map Prod.fst else none

/-- What the rest of the process answers while one item is worked on: clocks,
instances, catalog, and what each call came to. -/
structure Answers (ι : Type) where
  takenAt : ℚ
  maxAge : Option ℚ
  embedder : ι
  embeddingTs : ℚ
  embedded : SectionAnswer Shortlist
  embeddingMs : ℕ
  analyzer : ι
  analyzerTs : ℚ
  analyzed : SectionAnswer AnalysisResult
  analyzerMs : ℕ
  catalog : Catalog
  entryTs : ℚ
  /-- The entry section whose `side_lock` is read. -/
  locked : ι
  ages : Except PyErr (String → Option ℚ)
  /-- The entry section that is run. -/
  entry : ι
  decided : SectionAnswer OrderIntent
  result : Except PyErr ExecResult
  entryMs : ℕ

/-- Nothing is answered yet but the clocks and what is read at the take. -/
def Answers.opened (takenAt embeddingTs : ℚ) (maxAge : Option ℚ) (sections : PipelineSection → ι) :
    Answers ι where
  takenAt := takenAt
  maxAge := maxAge
  embedder := sections .embedding
  embeddingTs := embeddingTs
  embedded := .raised ""
  embeddingMs := 0
  analyzer := sections .analyzer
  analyzerTs := 0
  analyzed := .raised ""
  analyzerMs := 0
  catalog := ⟨fun _ => none, fun _ => none⟩
  entryTs := 0
  locked := sections .entry
  ages := .ok fun _ => none
  entry := sections .entry
  decided := .raised ""
  result := .ok { filled := false }
  entryMs := 0

def Answers.bought (a : Answers ι) (item : NewsItem) (ar : AnalysisResult) (ts : ℚ)
    (choice : EntryChoice) : List (PipelineEffect ι) :=
  [.entryRow (entryRow item ar ts a.entryMs choice (some (entryExecution a.result)))]

def Answers.decidedOn (a : Answers ι) (item : NewsItem) (ar : AnalysisResult) (ts : ℚ)
    (books : Option BookCheck) : List (PipelineEffect ι) :=
  let choice := entryChoice books a.decided
  match choice.intent with
  | some intent => .executeBuy intent item.id ts :: a.bought item ar ts choice
  | none => [.entryRow (entryRow item ar ts a.entryMs choice none)]

def Answers.checked (setup : PipelineSetup ι) (a : Answers ι) (item : NewsItem) (ar : AnalysisResult)
    (ts : ℚ) (books : Option BookCheck) : List (PipelineEffect ι) :=
  if noFreshBook books then
    [.entryRow (entryRow item ar ts a.entryMs (staleBook (books.bind BookCheck.oldest)) none)]
  else .decide a.entry ar (freshTokens setup a.entry books) :: a.decidedOn item ar ts books

/-- From the answer of `ensure_fresh` on; what it raises ends the item. -/
def Answers.refreshed (setup : PipelineSetup ι) (a : Answers ι) (item : NewsItem)
    (ar : AnalysisResult) (ts : ℚ) (market : Market) (tokens : List String) : List (PipelineEffect ι) :=
  match a.ages with
  | .error _ => []
  | .ok ages => a.checked setup item ar ts (some (bookCheck market tokens setup.maxBookAge ages))

def Answers.runEntry (setup : PipelineSetup ι) (a : Answers ι) (item : NewsItem)
    (ar : AnalysisResult) : List (PipelineEffect ι) :=
  match checkedMarket setup a.catalog ar with
  | some market =>
    let tokens := entryTokens setup a.locked market
    .ensureFresh tokens setup.maxBookAge :: a.refreshed setup item ar a.entryTs market tokens
  | none => a.checked setup item ar a.entryTs none

/-- `_run_analyzer` from the section's answer on, and what follows it. -/
def Answers.afterAnalyzer (setup : PipelineSetup ι) (a : Answers ι) (item : NewsItem) (ts : ℚ) :
    List (PipelineEffect ι) :=
  match analyzerEffects setup a.catalog item ts a.analyzed a.analyzerMs with
  | .error _ => []
  | .ok effects =>
    effects ++
      match a.analyzed.forwarded with
      | some ar => a.runEntry setup item ar
      | none => []

/-- `_run_embedding` from the section's answer on, and what follows it. -/
def Answers.afterEmbedding (setup : PipelineSetup ι) (a : Answers ι) (item : NewsItem) (ts : ℚ) :
    List (PipelineEffect ι) :=
  match embeddingRow item ts a.embedded a.embeddingMs with
  | .error _ => []
  | .ok row =>
    .embeddingRow row ::
      match a.embedded.forwarded with
      | some _ => .run .analyzer a.analyzer :: a.afterAnalyzer setup item a.analyzerTs
      | none => []

def Answers.process (setup : PipelineSetup ι) (a : Answers ι) (item : NewsItem) : List (PipelineEffect ι) :=
  match staleNewsRow item a.maxAge a.takenAt with
  | some row => [.analyzerRow row]
  | none => .run .embedding a.embedder :: a.afterEmbedding setup item a.embeddingTs

/-- What the worker waits for in an item. -/
inductive Stage where
  | embedding (ts : ℚ)
  | analyzer (ts : ℚ)
  | refresh (ar : AnalysisResult) (ts : ℚ) (market : Market) (tokens : List String)
  | decision (ar : AnalysisResult) (ts : ℚ) (books : Option BookCheck)
  | buy (ar : AnalysisResult) (ts : ℚ) (choice : EntryChoice)

/-- The item in flight, by its position among those accepted. -/
structure Flight where
  index : ℕ
  item : NewsItem
  stage : Stage

/-- `PipelineOrchestrator`. `accepted`, `answers`, `cut` and `trace` are a record for
the reader: the items accepted, what was answered so far for each one taken off the
queue, the positions of those whose work was broken off, and the effects with the
position of the item each was for. -/
structure Pipeline (ι : Type) where
  sections : PipelineSection → ι
  newsMaxAge : Option ℚ
  queue : List NewsItem
  running : Bool
  flight : Option Flight
  embeddingLog : SectionLog EmbeddingCall
  analyzerLog : SectionLog AnalyzerCall
  entryLog : SectionLog EntryRow
  accepted : List NewsItem
  answers : List (Answers ι)
  cut : List ℕ
  trace : List (Option ℕ × PipelineEffect ι)

def Pipeline.init (sections : PipelineSection → ι) (newsMaxAge : Option ℚ) (maxlen : ℕ) :
    Pipeline ι where
  sections := sections
  newsMaxAge := newsMaxAge
  queue := []
  running := false
  flight := none
  embeddingLog := .empty maxlen
  analyzerLog := .empty maxlen
  entryLog := .empty maxlen
  accepted := []
  answers := []
  cut := []
  trace := []

def Pipeline.emitOne (tag : Option ℕ) (p : Pipeline ι) (e : PipelineEffect ι) : Pipeline ι :=
  let p := { p with trace := p.trace ++ [(tag, e)] }
  match e with
  | .embeddingRow row => { p with embeddingLog := p.embeddingLog.append row }
  | .analyzerRow row => { p with analyzerLog := p.analyzerLog.append row }
  | .entryRow row => { p with entryLog := p.entryLog.append row }
  | _ => p

def Pipeline.emit (p : Pipeline ι) (tag : Option ℕ) (effects : List (PipelineEffect ι)) : Pipeline ι :=
  effects.foldl (Pipeline.emitOne tag) p

def Pipeline.full (setup : PipelineSetup ι) (p : Pipeline ι) : Bool :=
  0 < setup.queueMaxsize && setup.queueMaxsize ≤ p.queue.length

/-- The row of an item the queue has no room for. -/
def overflowRow (item : NewsItem) (now : ℚ) (depth : ℕ) : EmbeddingCall where
  ts := now
  newsId := item.id
  newsContentPreview := item.preview
  urgency := item.urgency
  verdict := .error
  candidateCount := 0
  topMarketId := none
  topScore := none
  catalogSize := 0
  latencyMs := 0
  error := some ("queue_overflow (depth=" ++ toString depth ++ ")")

def Pipeline.enqueue (setup : PipelineSetup ι) (p : Pipeline ι) (item : NewsItem) (now : ℚ) :
    Pipeline ι :=
  if p.full setup then p.emit none [.embeddingRow (overflowRow item now p.queue.length)]
  else { p with queue := p.queue ++ [item], accepted := p.accepted ++ [item] }

def Pipeline.advance (p : Pipeline ι) (f : Flight) (effects : List (PipelineEffect ι)) (next : Option Stage) :
    Pipeline ι :=
  { p.emit (some f.index) effects with flight := next.map fun stage => { f with stage := stage } }

def Pipeline.hear (p : Pipeline ι) (f : Flight) (answer : Answers ι → Answers ι) : Pipeline ι :=
  { p with answers := p.answers.modify f.index answer }

def Pipeline.cutOff (p : Pipeline ι) (f : Flight) : Pipeline ι :=
  { p with flight := none, cut := p.cut ++ [f.index] }

/-- The entry section is run, unless the books leave it nothing to price. -/
def Pipeline.consult (setup : PipelineSetup ι) (p : Pipeline ι) (f : Flight) (before : List (PipelineEffect ι))
    (ar : AnalysisResult) (ts : ℚ) (books : Option BookCheck) (ms : ℕ) : Pipeline ι :=
  let inst := p.sections .entry
  let p := p.hear f fun a => { a with entry := inst, entryMs := ms }
  if noFreshBook books then
    p.advance f (before ++
      [.entryRow (entryRow f.item ar ts ms (staleBook (books.bind BookCheck.oldest)) none)]) none
  else
    p.advance f (before ++ [.decide inst ar (freshTokens setup inst books)])
      (some (.decision ar ts books))

/-- The worker takes the next item off the queue. -/
def Pipeline.take (p : Pipeline ι) (item : NewsItem) (rest : List NewsItem) (now embeddingTs : ℚ) :
    Pipeline ι :=
  let f : Flight := ⟨p.answers.length, item, .embedding embeddingTs⟩
  let p := { p with
    queue := rest
    answers := p.answers ++ [Answers.opened now embeddingTs p.newsMaxAge p.sections] }
  match staleNewsRow item p.newsMaxAge now with
  | some row => p.advance f [.analyzerRow row] none
  | none => p.advance f [.run .embedding (p.sections .embedding)] (some f.stage)

def Pipeline.embedded (p : Pipeline ι) (f : Flight) (ts : ℚ) (answer : SectionAnswer Shortlist) (ms : ℕ)
    (analyzerTs : ℚ) : Pipeline ι :=
  let inst := p.sections .analyzer
  let p := p.hear f fun a =>
    { a with embedded := answer, embeddingMs := ms, analyzer := inst, analyzerTs := analyzerTs }
  match embeddingRow f.item ts answer ms with
  | .error _ => p.cutOff f
  | .ok row =>
    match answer.forwarded with
    | none => p.advance f [.embeddingRow row] none
    | some _ => p.advance f [.embeddingRow row, .run .analyzer inst] (some (.analyzer analyzerTs))

def Pipeline.analyzed (setup : PipelineSetup ι) (p : Pipeline ι) (f : Flight) (ts : ℚ)
    (answer : SectionAnswer AnalysisResult) (ms : ℕ) (catalog : Catalog) (entryTs : ℚ) (entryMs : ℕ) :
    Pipeline ι :=
  let inst := p.sections .entry
  let p := p.hear f fun a =>
    { a with analyzed := answer, analyzerMs := ms, catalog := catalog, entryTs := entryTs, locked := inst }
  match analyzerEffects setup catalog f.item ts answer ms with
  | .error _ => p.cutOff f
  | .ok effects =>
    match answer.forwarded with
    | none => p.advance f effects none
    | some ar =>
      match checkedMarket setup catalog ar with
      | some market =>
        let tokens := entryTokens setup inst market
        p.advance f (effects ++ [.ensureFresh tokens setup.maxBookAge])
          (some (.refresh ar entryTs market tokens))
      | none => p.consult setup f effects ar entryTs none entryMs

/-- `ensure_fresh` answers. -/
def Pipeline.refreshed (setup : PipelineSetup ι) (p : Pipeline ι) (f : Flight) (ar : AnalysisResult)
    (ts : ℚ) (market : Market) (tokens : List String) (answer : Except PyErr (String → Option ℚ))
    (ms : ℕ) : Pipeline ι :=
  let p := p.hear f fun a => { a with ages := answer }
  match answer with
  | .error _ => p.cutOff f
  | .ok ages => p.consult setup f [] ar ts (some (bookCheck market tokens setup.maxBookAge ages)) ms

def Pipeline.decided (p : Pipeline ι) (f : Flight) (ar : AnalysisResult) (ts : ℚ)
    (books : Option BookCheck) (answer : SectionAnswer OrderIntent) (ms : ℕ) : Pipeline ι :=
  let p := p.hear f fun a => { a with decided := answer, entryMs := ms }
  let choice := entryChoice books answer
  match choice.intent with
  | some intent => p.advance f [.executeBuy intent f.item.id ts] (some (.buy ar ts choice))
  | none => p.advance f [.entryRow (entryRow f.item ar ts ms choice none)] none

def Pipeline.bought (p : Pipeline ι) (f : Flight) (ar : AnalysisResult) (ts : ℚ) (choice : EntryChoice)
    (result : Except PyErr ExecResult) (ms : ℕ) : Pipeline ι :=
  let p := p.hear f fun a => { a with result := result, entryMs := ms }
  p.advance f [.entryRow (entryRow f.item ar ts ms choice (some (entryExecution result)))] none

inductive PipelineEvent (ι : Type) where
  | enqueue (item : NewsItem) (now : ℚ)
  | take (now embeddingTs : ℚ)
  | embedded (answer : SectionAnswer Shortlist) (ms : ℕ) (analyzerTs : ℚ)
  | analyzed (answer : SectionAnswer AnalysisResult) (ms : ℕ) (catalog : Catalog) (entryTs : ℚ)
    (entryMs : ℕ)
  | refreshed (ages : Except PyErr (String → Option ℚ)) (entryMs : ℕ)
  | decided (answer : SectionAnswer OrderIntent) (entryMs : ℕ)
  | bought (result : Except PyErr ExecResult) (entryMs : ℕ)
  | replaceSection (s : PipelineSection) (inst : ι)
  | setNewsMaxAge (seconds : Option ℚ)
  | start
  | stop

/-- The answer to what the item in flight waits for. -/
def Pipeline.answer (setup : PipelineSetup ι) (p : Pipeline ι) (f : Flight) :
    Stage → PipelineEvent ι → Option (Pipeline ι)
  | .embedding ts, .embedded answer ms analyzerTs => some (p.embedded f ts answer ms analyzerTs)
  | .analyzer ts, .analyzed answer ms catalog entryTs entryMs =>
    some (p.analyzed setup f ts answer ms catalog entryTs entryMs)
  | .refresh ar ts market tokens, .refreshed ages entryMs =>
    some (p.refreshed setup f ar ts market tokens ages entryMs)
  | .decision ar ts books, .decided answer entryMs => some (p.decided f ar ts books answer entryMs)
  | .buy ar ts choice, .bought result entryMs => some (p.bought f ar ts choice result entryMs)
  | _, _ => none

/-- What one event makes of the pipeline; `none` where it cannot occur. -/
def Pipeline.step (setup : PipelineSetup ι) (p : Pipeline ι) (e : PipelineEvent ι) : Option (Pipeline ι) :=
  match e with
  | .enqueue item now => some (p.enqueue setup item now)
  | .take now embeddingTs =>
    match p.running, p.flight, p.queue with
    | true, none, item :: rest => some (p.take item rest now embeddingTs)
    | _, _, _ => none
  | .replaceSection s inst => some { p with sections := Function.update p.sections s inst }
  | .setNewsMaxAge seconds => some { p with newsMaxAge := seconds }
  | .start => some { p with running := true }
  | .stop =>
    let p := { p with running := false }
    match p.flight with
    | some f => some (p.cutOff f)
    | none => some p
  | e => p.flight.bind fun f => p.answer setup f f.stage e

end OpenPoly
