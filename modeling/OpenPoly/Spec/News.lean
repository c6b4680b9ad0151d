import OpenPoly.Spec.JsonText
import OpenPoly.Spec.Writer

/-! The news feed's way into the database: a websocket frame and the item it
becomes, the freshness filter, and the write-behind sink with its table. -/

namespace OpenPoly

/-- What the interpreter brings: the text of a float or container, which escapes
every surrogate (`none` for a `RecursionError`), `datetime.fromisoformat` as UTC
epoch seconds (`none` for its `ValueError`), and how deep the decoder may nest. -/
structure NewsEnv where
  repr : PyJson → Option String
  fromisoformat : PyStr → Option ℚ
  maxDepth : ℕ

/-- `MAX_FUTURE_SKEW_SECONDS`. -/
def maxFutureSkew : ℚ := 60

def epochMsThreshold : ℚ := 10 ^ 12

def epochSeconds : PyFloat → PyFloat
  | .fin q => .fin (if epochMsThreshold < q then q / 1000 else q)
  | x => x

/-- A digit to the `\d` of a pattern on text. -/
def isDecimalDigit (c : Char) : Bool := (asciiDigit c).isDigit

def numericRe (cs : List Char) : Bool :=
  let body := (takeSign cs).2
  let whole := body.takeWhile isDecimalDigit
  match body.dropWhile isDecimalDigit with
  | [] => !whole.isEmpty
  | c :: frac => c = '.' && frac.all isDecimalDigit && !(whole.isEmpty && frac.isEmpty)

def NewsEnv.parseIso (env : NewsEnv) (s : PyStr) : Option ℚ :=
  if s = [] then none
  else env.fromisoformat (s.flatMap fun c => if c = .char 'Z' then PyStr.of "+00:00" else [c])

def toEpoch (env : NewsEnv) (value : PyJson) (fallback : ℚ) : Except PyErr PyFloat :=
  match value with
  | .null => .ok (.fin fallback)
  | .bool b => (pyFloat (.bool b)).map epochSeconds
  | .int n => (pyFloat (.int n)).map epochSeconds
  | .float x => (pyFloat (.float x)).map epochSeconds
  | .str s =>
    if numericRe (stripChars isPySpace s.shown.toList) then (floatOfString s.shown).map epochSeconds
    else
      match env.parseIso s with
      | some t => .ok (.fin t)
      | none =>
        match floatOfString s.shown with
        | .ok x => .ok (epochSeconds x)
        | .error _ => .ok (.fin fallback)
  | .arr _ => .ok (.fin fallback)
  | .obj _ => .ok (.fin fallback)

/-- `x - now > MAX_FUTURE_SKEW_SECONDS`, which no NaN is. -/
def PyFloat.aheadOf (now : ℚ) : PyFloat → Bool
  | .fin q => maxFutureSkew < q - now
  | .inf => true
  | .negInf => false
  | .nan => false

structure NewsItem where
  id : PyStr
  content : PyStr
  urgency : PyStr
  /-- As the provider sent it. -/
  sentiment : PyJson
  publishedAt : PyFloat
  receivedAt : ℚ

/-- `str(value)`. -/
def PyJson.text (env : NewsEnv) : PyJson → Option PyStr
  | .null => some (PyStr.of "None")
  | .bool b => some (PyStr.of (if b then "True" else "False"))
  | .int n => some (PyStr.of (toString n))
  | .str s => some s
  | value => (env.repr value).map PyStr.of

/-- `str(data.get(key, default))`. -/
def PyDict.textOf (env : NewsEnv) (data : PyDict) (key default : String) : Option PyStr :=
  match data.get? key with
  | some value => value.text env
  | none => some (PyStr.of default)

/-- The item of a frame's object, unless a conversion raises. -/
def newsItem (env : NewsEnv) (data : PyDict) (now : ℚ) : Option NewsItem := do
  let publishedAt ← (toEpoch env ((data.get? "published_at").getD .null) now).toOption
  let id ← data.textOf env "id" ""
  let content ← data.textOf env "content" ""
  let urgency ← data.textOf env "urgency" "regular"
  return {
    id := id
    content := content
    urgency := urgency
    sentiment := (data.get? "sentiment").getD .null
    publishedAt := if publishedAt.aheadOf now then .fin now else publishedAt
    receivedAt := now }

def defaultParse (env : NewsEnv) (now : ℚ) (raw : String) : Option NewsItem :=
  match jsonDecode env.maxDepth raw with
  | .ok (.obj data) => if (PyDict.get? data "id").isSome then newsItem env data now else none
  | _ => none

inductive NewsFrame where
  | text (raw : String)
  | binary (raw : ByteArray)

def NewsFrame.decode : NewsFrame → Option String
  | .text raw => some raw
  | .binary raw => String.fromUTF8? raw

/-- A frame as the client reads it: when, and with which freshness filter. -/
structure Arrival where
  frame : NewsFrame
  now : ℚ
  freshnessSeconds : Option ℚ

/-- `_decode_and_parse`. -/
def Arrival.parse (env : NewsEnv) (a : Arrival) : Option NewsItem :=
  a.frame.decode.bind (defaultParse env a.now)

/-- `received_at - published_at > freshness_seconds`, which no NaN is. -/
def NewsItem.stale (item : NewsItem) (freshnessSeconds : ℚ) : Bool :=
  match item.publishedAt with
  | .fin q => freshnessSeconds < item.receivedAt - q
  | .negInf => true
  | .inf => false
  | .nan => false

/-- The item `_consume` hands on. -/
def Arrival.item (env : NewsEnv) (a : Arrival) : Option NewsItem :=
  (a.parse env).filter fun item => !a.freshnessSeconds.any item.stale

inductive SqlValue where
  | null
  | integer (n : ℤ)
  | real (x : PyFloat)
  | text (s : String)
  deriving DecidableEq

/-- A row of `news_item`. -/
structure NewsItemRow where
  newsId : String
  content : String
  urgency : String
  sentiment : SqlValue
  publishedAt : SqlValue
  receivedAt : ℚ
  publishedAt_notNull : publishedAt ≠ .null

/-- The text of a string that has one in UTF-8. -/
def PyStr.encode (s : PyStr) : Option String := if s.encodable then some s.shown else none

def SqlValue.ofFloat : PyFloat → SqlValue
  | .nan => .null
  | x => .real x

/-- What `sqlite3` binds, if it does: integers of 64 bits, no list and no dict. -/
def bindValue : PyJson → Option SqlValue
  | .null => some .null
  | .bool b => some (.integer (if b then 1 else 0))
  | .int n => if -2 ^ 63 ≤ n ∧ n < 2 ^ 63 then some (.integer n) else none
  | .float x => some (SqlValue.ofFloat x)
  | .str s => s.encode.map .text
  | .arr _ => none
  | .obj _ => none

def newsItemToRow (item : NewsItem) : Option NewsItemRow := do
  let newsId ← item.id.encode
  let content ← item.content.encode
  let urgency ← item.urgency.encode
  let sentiment ← bindValue item.sentiment
  if h : SqlValue.ofFloat item.publishedAt ≠ .null then
    return ⟨newsId, content, urgency, sentiment, SqlValue.ofFloat item.publishedAt, item.receivedAt, h⟩
  else none

/-- The sink of `make_news_sink` on a working database: a batch is one transaction. -/
def newsSink (table : List NewsItemRow) (items : List NewsItem) : Option (List NewsItemRow) :=
  (items.mapM newsItemToRow).map (table ++ ·)

/-- The write-behind writer of the news, and the table it writes to. -/
structure NewsStore where
  writer : Writer NewsItem := {}
  table : List NewsItemRow := []

def NewsStore.opened (table : List NewsItemRow) : NewsStore := { table := table }

inductive NewsEvent where
  | frame (arrival : Arrival)
  /-- A sink that was called is through. -/
  | sink (write : ℕ)
  /-- Any other event of the writer. -/
  | writer (event : WriterEvent NewsItem)

/-- What one event makes of the store; `none` where it cannot occur. -/
def NewsStore.step (env : NewsEnv) (config : WriterConfig) (m : NewsStore) : NewsEvent → Option NewsStore
  | .frame arrival =>
    match arrival.item env with
    | some item => some { m with writer := m.writer.enqueue config item }
    | none => some m
  | .sink write =>
    match m.writer.writes[write]? with
    | some ⟨batch, .inSink⟩ =>
      match newsSink m.table batch with
      | some table => some ⟨m.writer.finish write batch true, table⟩
      | none => some ⟨m.writer.finish write batch false, m.table⟩
    | _ => none
  | .writer (.enqueue _) => none
  | .writer (.finish _ _) => none
  | .writer event => (m.writer.step config event).map fun writer => { m with writer := writer }

end OpenPoly
