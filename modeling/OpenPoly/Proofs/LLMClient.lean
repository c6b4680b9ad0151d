import OpenPoly.Spec.LLMClient

/-! The structural retries: how many requests are made and at which caps, when an answer
is taken, and that the usage reported is that of the responses received. -/

namespace OpenPoly

variable {c : LLMSettings} {system user : String} {tool : ToolDefinition}
  {answer : ℕ → LLMRequest → Except String LLMResponse}

/-- The requests of one call of the client, each with its response where there was one. -/
abbrev Exchange := List (LLMRequest × Option LLMResponse)

def Exchange.responses (calls : Exchange) : List LLMResponse := calls.filterMap Prod.snd

def LLMUsage.spent (usage : LLMUsage) (responses : List LLMResponse) : LLMUsage :=
  responses.foldl (fun u r => u.plus r.usage) usage

theorem spent_cons (usage : LLMUsage) (r : LLMResponse) (rs : List LLMResponse) :
    usage.spent (r :: rs) = (usage.plus r.usage).spent rs := rfl

theorem spent_attempts (usage : LLMUsage) (rs : List LLMResponse) :
    (usage.spent rs).attempts = usage.attempts + rs.length := by
  induction rs generalizing usage with
  | nil => rfl
  | cons r rs ih =>
    rw [spent_cons, ih, List.length_cons]
    simp only [LLMUsage.plus]
    omega

theorem spent_model (usage : LLMUsage) (rs : List LLMResponse) : (usage.spent rs).model = usage.model := by
  induction rs generalizing usage with
  | nil => rfl
  | cons r rs ih =>
    rw [spent_cons, ih]
    rfl

/-- The four counts are sums over the responses. -/
theorem spent_counts (usage : LLMUsage) (rs : List LLMResponse) :
    (usage.spent rs).inputTokens = usage.inputTokens + (rs.map fun r => r.usage.inputTokens.getD 0).sum ∧
      (usage.spent rs).outputTokens =
        usage.outputTokens + (rs.map fun r => r.usage.outputTokens.getD 0).sum ∧
      (usage.spent rs).cacheReadInputTokens =
        usage.cacheReadInputTokens + (rs.map fun r => r.usage.cacheReadInputTokens.getD 0).sum ∧
      (usage.spent rs).cacheCreationInputTokens =
        usage.cacheCreationInputTokens + (rs.map fun r => r.usage.cacheCreationInputTokens.getD 0).sum := by
  induction rs generalizing usage with
  | nil => simp [LLMUsage.spent]
  | cons r rs ih =>
    obtain ⟨hin, hout, hread, hcreate⟩ := ih (usage.plus r.usage)
    rw [spent_cons, hin, hout, hread, hcreate]
    simp only [LLMUsage.plus, List.map_cons, List.sum_cons]
    exact ⟨by ring, by ring, by ring, by ring⟩

/-- What an outcome says about the responses there were: an answer is the last one's, and
no other was usable; an error has the usage of all of them. -/
structure CallSettles (tool : ToolDefinition) (usage : LLMUsage) (calls : Exchange) (outcome : LLMOutcome) :
    Prop where
  answered : ∀ data u, outcome = .result data u → u = usage.spent calls.responses ∧
    ∃ before request r, calls = before ++ [(request, some r)] ∧ r.usable tool = some data ∧
      ∀ call ∈ before, ∃ r', call.2 = some r' ∧ r'.usable tool = none
  failed : ∀ message u, outcome = .failed message u →
    (u = if (usage.spent calls.responses).attempts = 0 then none else some (usage.spent calls.responses)) ∧
      ∀ r ∈ calls.responses, r.usable tool = none

theorem settles_cons {usage : LLMUsage} {calls : Exchange} {outcome : LLMOutcome} {request : LLMRequest}
    {r : LLMResponse} (hr : r.usable tool = none) (h : CallSettles tool (usage.plus r.usage) calls outcome) :
    CallSettles tool usage ((request, some r) :: calls) outcome := by
  have hresponses : Exchange.responses ((request, some r) :: calls) = r :: Exchange.responses calls := rfl
  constructor
  · intro data u houtcome
    obtain ⟨hu, before, last, r', hcalls, husable, hbefore⟩ := h.answered data u houtcome
    refine ⟨by rw [hresponses, spent_cons, hu], (request, some r) :: before, last, r', ?_, husable, ?_⟩
    · rw [hcalls, List.cons_append]
    · intro call hcall
      rcases List.mem_cons.mp hcall with rfl | hcall
      · exact ⟨r, rfl, hr⟩
      · exact hbefore call hcall
  · intro message u houtcome
    obtain ⟨hu, hnone⟩ := h.failed message u houtcome
    refine ⟨by rw [hresponses, spent_cons, hu], fun r' hr' => ?_⟩
    rw [hresponses] at hr'
    rcases List.mem_cons.mp hr' with rfl | hr'
    · exact hr
    · exact hnone r' hr'

/-- The caps of the requests: the next is twice the last where its response was cut off,
up to the ceiling, and else the same. -/
def CapsFrom (c : LLMSettings) (system user : String) (tool : ToolDefinition) : ℕ → Exchange → Prop
  | _, [] => True
  | cap, (request, response) :: calls =>
    request = c.request system user tool cap ∧
      CapsFrom c system user tool
        (if response.any LLMResponse.truncated then min (cap * 2) maxTokensCeiling else cap) calls

theorem attempts_spec (left : ℕ) (usage : LLMUsage) (cap : ℕ) (lastError : Option String)
    (h : 0 < left ∨ usage.attempts ≠ 0) :
    (c.attempts system user tool answer left usage cap lastError).1.length ≤ left ∧
      CapsFrom c system user tool cap (c.attempts system user tool answer left usage cap lastError).1 ∧
      CallSettles tool usage (c.attempts system user tool answer left usage cap lastError).1
        (c.attempts system user tool answer left usage cap lastError).2 := by
  induction left generalizing usage cap lastError with
  | zero =>
    have hspent : usage.attempts ≠ 0 := h.resolve_left (lt_irrefl 0)
    refine ⟨le_rfl, trivial, ⟨nofun, ?_⟩⟩
    intro message u houtcome
    cases houtcome
    exact ⟨(if_neg hspent).symm, List.forall_mem_nil _⟩
  | succ left ih =>
    unfold LLMSettings.attempts
    dsimp only
    cases hanswer : answer usage.attempts (c.request system user tool cap) with
    | error exc =>
      refine ⟨Nat.le_add_left 1 left, ⟨rfl, trivial⟩, ⟨nofun, ?_⟩⟩
      intro message u houtcome
      cases houtcome
      exact ⟨rfl, List.forall_mem_nil _⟩
    | ok response =>
      dsimp only
      cases husable : response.usable tool with
      | some data =>
        refine ⟨Nat.le_add_left 1 left, ⟨rfl, trivial⟩, ⟨?_, nofun⟩⟩
        intro data' u houtcome
        cases houtcome
        exact ⟨rfl, [], _, response, rfl, husable, List.forall_mem_nil _⟩
      | none =>
        obtain ⟨hlength, hcaps, hsettles⟩ := ih (usage.plus response.usage)
          (if response.truncated then min (cap * 2) maxTokensCeiling else cap)
          (some (response.fault tool cap)) (.inr (Nat.succ_ne_zero _))
        exact ⟨Nat.succ_le_succ hlength, ⟨rfl, hcaps⟩, settles_cons husable hsettles⟩

/-- A cap under the ceiling never comes over it. -/
theorem caps_le {cap : ℕ} {calls : Exchange} (h : CapsFrom c system user tool cap calls)
    (hcap : cap ≤ maxTokensCeiling) : ∀ call ∈ calls, call.1.maxTokens ≤ maxTokensCeiling ∧
      cap ≤ call.1.maxTokens := by
  induction calls generalizing cap with
  | nil => exact List.forall_mem_nil _
  | cons call calls ih =>
    obtain ⟨request, response⟩ := call
    obtain ⟨rfl, hrest⟩ := h
    intro call hcall
    rcases List.mem_cons.mp hcall with rfl | hcall
    · exact ⟨hcap, le_rfl⟩
    · by_cases hcut : response.any LLMResponse.truncated = true
      · rw [if_pos hcut] at hrest
        obtain ⟨hle, hge⟩ := ih hrest (min_le_right _ _) call hcall
        exact ⟨hle, (le_min (by omega) hcap).trans hge⟩
      · rw [if_neg hcut] at hrest
        exact ih hrest hcap call hcall

theorem analyze_spec (c : LLMSettings) (keyError : Option String) (system user : String)
    (tool : ToolDefinition) (maxTokens : ℕ) (answer : ℕ → LLMRequest → Except String LLMResponse) :
    (c.analyzeDetailed keyError system user tool maxTokens answer).1.length ≤ structuralRetries ∧
      CapsFrom c system user tool maxTokens (c.analyzeDetailed keyError system user tool maxTokens answer).1 ∧
      CallSettles tool { model := c.model } (c.analyzeDetailed keyError system user tool maxTokens answer).1
        (c.analyzeDetailed keyError system user tool maxTokens answer).2 := by
  cases keyError with
  | some text =>
    refine ⟨Nat.zero_le _, trivial, ⟨nofun, ?_⟩⟩
    intro message u houtcome
    cases houtcome
    exact ⟨rfl, List.forall_mem_nil _⟩
  | none =>
    have hkey : c.analyzeDetailed none system user tool maxTokens answer =
        c.attempts system user tool answer structuralRetries { model := c.model } maxTokens none := rfl
    rw [hkey]
    exact attempts_spec structuralRetries { model := c.model } maxTokens none (.inl Nat.two_pos)

/-- One call of the client: at most two requests, the caps growing under the ceiling; an
answer is the first usable response, complete or not cut off; and the usage, also an
error's, is the sum over every response received. -/
theorem analyze_settles (c : LLMSettings) (keyError : Option String) (system user : String)
    (tool : ToolDefinition) (maxTokens : ℕ) (answer : ℕ → LLMRequest → Except String LLMResponse) :
    (c.analyzeDetailed keyError system user tool maxTokens answer).1.length ≤ structuralRetries ∧
      CapsFrom c system user tool maxTokens (c.analyzeDetailed keyError system user tool maxTokens answer).1 ∧
      (maxTokens ≤ maxTokensCeiling →
        ∀ call ∈ (c.analyzeDetailed keyError system user tool maxTokens answer).1,
          call.1.maxTokens ≤ maxTokensCeiling ∧ maxTokens ≤ call.1.maxTokens) ∧
      CallSettles tool { model := c.model } (c.analyzeDetailed keyError system user tool maxTokens answer).1
        (c.analyzeDetailed keyError system user tool maxTokens answer).2 := by
  obtain ⟨hlength, hcaps, hsettles⟩ := analyze_spec c keyError system user tool maxTokens answer
  refine ⟨hlength, hcaps, ?_, hsettles⟩
  intro hcap
  exact caps_le hcaps hcap

/-- `TOOL`, by its required fields. -/
def analysisTool : ToolDefinition :=
  ⟨"submit_analysis", ["reasoning", "selected_index", "news_direction", "p_yes", "confidence", "rationale"]⟩

/-- The tool call was cut off after its first field. -/
def cutResponse : LLMResponse where
  usage := { inputTokens := some 900, outputTokens := some 2048 }
  stopReason := some "max_tokens"
  content := [.other, .toolUse "submit_analysis" [("reasoning", .str "the rate")]]

def fullResponse : LLMResponse where
  usage := { inputTokens := some 900, outputTokens := some 2500 }
  stopReason := some "tool_use"
  content := [.other, .toolUse "submit_analysis" [("reasoning", .str "the rate falls"), ("selected_index", .int 1),
    ("news_direction", .str "raises_yes"), ("p_yes", .float (.fin (7 / 10))), ("confidence", .str "high"),
    ("rationale", .str "a cut")]]

/-- The first response is cut off, and the retry is answered so. -/
def afterCut (last : Except String LLMResponse) (n : ℕ) (_ : LLMRequest) : Except String LLMResponse :=
  if n = 0 then .ok cutResponse else last

def haikuClient : LLMSettings := ⟨"claude-haiku-4-5", 0, none⟩

def cutCall (last : Except String LLMResponse) : Exchange × LLMOutcome :=
  haikuClient.analyzeDetailed none "" "" analysisTool 2048 (afterCut last)

/-- A retry after a cut-off response, answered or failed: the cap is doubled, and the usage
is of both responses or of the one there was. -/
theorem analyze_settles_sample :
    ((cutCall (.ok fullResponse)).1.map (fun call => call.1.maxTokens) = [2048, 4096] ∧
      CallSettles analysisTool { model := haikuClient.model } (cutCall (.ok fullResponse)).1
        (cutCall (.ok fullResponse)).2) ∧
    (cutCall (.error "APIConnectionError()")).1.length = 2 ∧
      CallSettles analysisTool { model := haikuClient.model } (cutCall (.error "APIConnectionError()")).1
        (cutCall (.error "APIConnectionError()")).2 :=
  ⟨⟨by decide +kernel, (analyze_settles haikuClient none "" "" analysisTool 2048 _).2.2.2⟩,
    by decide +kernel, (analyze_settles haikuClient none "" "" analysisTool 2048 _).2.2.2⟩

/-- What a usable response is: the tool was called, with every required field or uncut. -/
theorem usable_iff {r : LLMResponse} {data : Dict} :
    r.usable tool = some data ↔
      r.data tool = some data ∧ (r.truncated = true → ∀ name ∈ tool.required, Dict.contains data name = true) := by
  unfold LLMResponse.usable
  rw [Option.filter_eq_some_iff]
  refine and_congr_right fun _ => ?_
  by_cases hcut : r.truncated = true
  · simp [hcut, missingRequired, List.filter_eq_nil_iff]
  · simp [hcut]

end OpenPoly
