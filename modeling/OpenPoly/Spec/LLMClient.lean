import OpenPoly.Spec.Analyzer
import OpenPoly.Spec.News

/-! `LLMClient`: what a model id says about the model, the structural retries of
`analyze_detailed`, and the usage summed over them. -/

namespace OpenPoly

structure ModelId where
  family : String
  major : ℕ
  minor : ℕ
  deriving DecidableEq, Repr

/-- `_FAMILIES`. -/
def modelFamilies : List String := ["opus", "sonnet", "haiku", "fable", "mythos"]

/-- `s` off the front of the text. -/
def dropText (s : String) (cs : List Char) : Option (List Char) :=
  if s.toList.isPrefixOf cs then some (cs.drop s.toList.length) else none

/-- The ways `\d{1,2}` matches at the front, the longer first: the value and the rest. -/
def oneOrTwoDigits : List Char → List (ℕ × List Char)
  | a :: b :: cs =>
    if isDecimalDigit a then
      if isDecimalDigit b then [(digitsValue [asciiDigit a, asciiDigit b], cs), (digitsValue [asciiDigit a], b :: cs)]
      else [(digitsValue [asciiDigit a], b :: cs)]
    else []
  | [a] => if isDecimalDigit a then [(digitsValue [asciiDigit a], [])] else []
  | [] => []

/-- `(?!\d)`. -/
def noDigitNext (cs : List Char) : Bool := !(cs.head?.any isDecimalDigit)

/-- The ways `(?:-(\d{1,2}))?` matches, taking the group first. -/
def optionalMinor (cs : List Char) : List (ℕ × List Char) :=
  (((dropText "-" cs).map oneOrTwoDigits).getD []) ++ [(0, cs)]

/-- `_NEW_ID` at the front of the text. -/
def newIdAt (cs : List Char) : Option ModelId :=
  (dropText "claude-" cs).bind fun cs =>
    modelFamilies.findSome? fun family =>
      (dropText (family ++ "-") cs).bind fun cs =>
        (oneOrTwoDigits cs).findSome? fun major =>
          (optionalMinor major.2).findSome? fun minor =>
            if noDigitNext minor.2 then some ⟨family, major.1, minor.1⟩ else none

/-- `_LEGACY_ID` at the front of the text. -/
def legacyIdAt (cs : List Char) : Option ModelId :=
  (dropText "claude-" cs).bind fun cs =>
    (oneOrTwoDigits cs).findSome? fun major =>
      (optionalMinor major.2).findSome? fun minor =>
        modelFamilies.findSome? fun family =>
          (dropText ("-" ++ family) minor.2).map fun _ => ⟨family, major.1, minor.1⟩

/-- `re.search`: the first place where there is a match. -/
def searchText {α : Type} (at? : List Char → Option α) (cs : List Char) : Option α :=
  cs.tails.findSome? at?

def normalizeModelId (model : String) : List Char :=
  let cs := (pyLower (pyStrip model)).toList
  ((cs.reverse.takeWhile fun c => c ≠ '/').reverse).map fun c => if c = '.' then '-' else c

def parseModel (model : String) : Option ModelId :=
  let m := normalizeModelId model
  match searchText newIdAt m with
  | some id => some id
  | none => searchText legacyIdAt m

structure ModelCapabilities where
  temperature : Bool
  forcedToolChoice : Bool
  effort : Bool
  deriving DecidableEq, Repr

def forcedToolChoice5x : List ModelId := [⟨"opus", 5, 0⟩, ⟨"sonnet", 5, 0⟩, ⟨"fable", 5, 0⟩, ⟨"haiku", 5, 5⟩]

def modelCapabilities (model : String) : ModelCapabilities :=
  match parseModel model with
  | none => ⟨false, false, false⟩
  | some id =>
    if id.major ≤ 3 then ⟨true, true, false⟩
    else if id.family = "fable" ∨ id.family = "mythos" ∨ 5 ≤ id.major then
      ⟨false, id ∈ forcedToolChoice5x, true⟩
    else if id.family = "haiku" then ⟨true, true, false⟩
    else if id.family = "sonnet" then ⟨id.minor ≤ 6, id.minor ≤ 6, 6 ≤ id.minor⟩
    else ⟨id.minor ≤ 6, id.minor ≤ 8, 5 ≤ id.minor⟩

structure ModelPrice where
  input : ℚ
  output : ℚ

def modelPricing : List (ModelId × ModelPrice) :=
  [(⟨"haiku", 4, 5⟩, ⟨1, 5⟩), (⟨"haiku", 5, 5⟩, ⟨1 / 10, 1 / 2⟩), (⟨"sonnet", 5, 0⟩, ⟨2, 10⟩)]

def modelPrice (model : String) : Option ModelPrice :=
  (parseModel model).bind fun id => (modelPricing.find? fun entry => entry.1 = id).map Prod.snd

/-- The `usage` of a response; a field it does not carry is none. -/
structure ResponseUsage where
  inputTokens : Option ℤ := none
  outputTokens : Option ℤ := none
  cacheReadInputTokens : Option ℤ := none
  cacheCreationInputTokens : Option ℤ := none

structure LLMUsage where
  model : String
  inputTokens : ℤ := 0
  outputTokens : ℤ := 0
  cacheReadInputTokens : ℤ := 0
  cacheCreationInputTokens : ℤ := 0
  attempts : ℕ := 0

def LLMUsage.plus (u : LLMUsage) (r : ResponseUsage) : LLMUsage where
  model := u.model
  inputTokens := u.inputTokens + r.inputTokens.getD 0
  outputTokens := u.outputTokens + r.outputTokens.getD 0
  cacheReadInputTokens := u.cacheReadInputTokens + r.cacheReadInputTokens.getD 0
  cacheCreationInputTokens := u.cacheCreationInputTokens + r.cacheCreationInputTokens.getD 0
  attempts := u.attempts + 1

def LLMUsage.costUsd (u : LLMUsage) : Option ℚ :=
  (modelPrice u.model).map fun price =>
    let perTokenIn := price.input / 1000000
    u.inputTokens * perTokenIn + u.cacheReadInputTokens * perTokenIn * (1 / 10) +
      u.cacheCreationInputTokens * perTokenIn * (5 / 4) + u.outputTokens * price.output / 1000000

def LLMUsage.toDict (u : LLMUsage) : Dict :=
  [("model", .str u.model), ("input_tokens", .int u.inputTokens), ("output_tokens", .int u.outputTokens),
    ("cache_read_input_tokens", .int u.cacheReadInputTokens),
    ("cache_creation_input_tokens", .int u.cacheCreationInputTokens), ("attempts", .int u.attempts),
    ("cost_usd", floatOrNone u.costUsd)]

/-- The tool a call asks for, with the required names of its schema. -/
structure ToolDefinition where
  name : String
  required : List String

structure LLMSettings where
  model : String
  temperature : ℚ
  effort : Option String := none

/-- The `tool_choice` of a request: the tool, or the model's choice. -/
inductive ToolChoice where
  | tool (name : String)
  | auto
  deriving DecidableEq

/-- `_request_params`, and the cap. -/
structure LLMRequest where
  model : String
  system : List String
  user : String
  tool : ToolDefinition
  toolChoice : ToolChoice
  temperature : Option ℚ
  effort : Option String
  maxTokens : ℕ

def toolInstruction (toolName : String) : String :=
  "Respond only by calling the " ++ toolName ++ " tool exactly once, with every required field filled in. " ++
    "Do not answer in plain text."

def LLMSettings.request (c : LLMSettings) (system user : String) (tool : ToolDefinition)
    (maxTokens : ℕ) : LLMRequest :=
  let caps := modelCapabilities c.model
  { model := c.model
    system := if caps.forcedToolChoice then [system] else [system, toolInstruction tool.name]
    user := user
    tool := tool
    toolChoice := if caps.forcedToolChoice then .tool tool.name else .auto
    temperature := if caps.temperature then some c.temperature else none
    effort := if caps.effort then c.effort else none
    maxTokens := maxTokens }

inductive ContentBlock where
  | toolUse (name : String) (input : Dict)
  /-- Thinking or text. -/
  | other

structure LLMResponse where
  usage : ResponseUsage := {}
  stopReason : Option String
  content : List ContentBlock

def ContentBlock.inputOf (toolName : String) : ContentBlock → Option Dict
  | .toolUse name input => if name = toolName then some input else none
  | .other => none

def LLMResponse.data (r : LLMResponse) (tool : ToolDefinition) : Option Dict :=
  r.content.findSome? (ContentBlock.inputOf tool.name)

def LLMResponse.truncated (r : LLMResponse) : Bool := r.stopReason = some "max_tokens"

def missingRequired (tool : ToolDefinition) (data : Dict) : List String :=
  tool.required.filter fun name => !Dict.contains data name

def LLMResponse.usable (r : LLMResponse) (tool : ToolDefinition) : Option Dict :=
  (r.data tool).filter fun data => !(r.truncated && !(missingRequired tool data).isEmpty)

inductive LLMOutcome where
  | result (data : Dict) (usage : LLMUsage)
  /-- An `LLMError`. -/
  | failed (message : String) (usage : Option LLMUsage)

def maxTokensCeiling : ℕ := 8192

def structuralRetries : ℕ := 2

def stopReasonText (reason : Option String) : String := reason.getD "None"

/-- The `last_error` of an unusable response. -/
def LLMResponse.fault (r : LLMResponse) (tool : ToolDefinition) (cap : ℕ) : String :=
  if r.truncated then "response truncated at max_tokens=" ++ toString cap
  else "no '" ++ tool.name ++ "' tool call (stop_reason=" ++ stopReasonText r.stopReason ++ ")"

/-- The attempts that are left. `answer` is the API's answer to a request, by how many
were made before it: a response, or the `repr` of an `APIError`. The requests made are
kept beside the outcome. -/
def LLMSettings.attempts (c : LLMSettings) (system user : String) (tool : ToolDefinition)
    (answer : ℕ → LLMRequest → Except String LLMResponse) :
    ℕ → LLMUsage → ℕ → Option String → List (LLMRequest × Option LLMResponse) × LLMOutcome
  | 0, usage, _, lastError =>
    ([], .failed ("LLM returned no usable tool call: " ++ lastError.getD "None") (some usage))
  | left + 1, usage, cap, _ =>
    let request := c.request system user tool cap
    match answer usage.attempts request with
    | .error exc =>
      ([(request, none)], .failed ("Anthropic API call failed: " ++ exc)
        (if usage.attempts = 0 then none else some usage))
    | .ok response =>
      let usage := usage.plus response.usage
      match response.usable tool with
      | some data => ([(request, some response)], .result data usage)
      | none =>
        let cap' := if response.truncated then min (cap * 2) maxTokensCeiling else cap
        let (requests, outcome) :=
          c.attempts system user tool answer left usage cap' (some (response.fault tool cap))
        ((request, some response) :: requests, outcome)

/-- `analyze_detailed`; `key` is the text of a `SecretsError`, where the key is not
resolved. -/
def LLMSettings.analyzeDetailed (c : LLMSettings) (keyError : Option String) (system user : String)
    (tool : ToolDefinition) (maxTokens : ℕ) (answer : ℕ → LLMRequest → Except String LLMResponse) :
    List (LLMRequest × Option LLMResponse) × LLMOutcome :=
  match keyError with
  | some text => ([], .failed ("could not resolve api_key_ref: " ++ text) none)
  | none => c.attempts system user tool answer structuralRetries { model := c.model } maxTokens none

/-- What the analyzer section takes the outcome for. A failure carries its bare message,
where the code logs `repr(exc)` of the `LLMError` around it. -/
def LLMOutcome.answer : LLMOutcome → LLMAnswer
  | .result data usage => .data data (some (.obj usage.toDict))
  | .failed message usage => .failed message (usage.map fun u => .obj u.toDict)

example : parseModel "us.anthropic/claude-haiku-4.5-20251001" = some ⟨"haiku", 4, 5⟩ := by decide +kernel
example : parseModel "claude-3-5-sonnet-20240620" = some ⟨"sonnet", 3, 5⟩ := by decide +kernel
example : parseModel "claude-sonnet-4-20250514" = some ⟨"sonnet", 4, 0⟩ := by decide +kernel

end OpenPoly
