import OpenPoly.Spec.Python

/-! `NewsSourceManager` with its source and the client loops it starts. An event is
what one task does without yielding the event loop; a `stop` that waits for its
client holds the manager's lock. Clock times and the event ring are left out. -/

namespace OpenPoly

/-- Where a `run_forever` is. -/
inductive ClientPhase where
  /-- Its task is created, and has yet to take its first step. -/
  | created
  /-- At `websockets.connect`. -/
  | dialing
  /-- In `_consume`. -/
  | consuming
  /-- At the `sleep(0)` after a clean close. -/
  | pausing
  /-- In `_wait_backoff`. -/
  | waiting
  | ended
  deriving DecidableEq

structure NewsClient where
  phase : ClientPhase := .created
  /-- `_stop` is set. -/
  stop : Bool := false
  /-- `cancel` was called on the task. -/
  cancelled : Bool := false
  freshnessSeconds : ℤ

/-- A call of `on_event`. -/
inductive NewsSignal where
  | connecting
  | reconnectAttempt
  | connected
  | disconnected
  | authFail (detail : String)
  | message
  | parseError

/-- What the connection does to a client loop, and the loop's own steps. -/
inductive ClientEvent where
  /-- The task takes its first step. -/
  | begin
  | opened
  /-- `InvalidStatus`. -/
  | rejected (detail : String)
  /-- Any other exception. -/
  | dropped
  /-- The server closes cleanly. -/
  | closed
  /-- A fresh item. -/
  | message
  | badFrame
  /-- The loop goes round after a close or a drop. -/
  | again
  /-- The cancellation reaches the loop. -/
  | unwind

def NewsClient.top (c : NewsClient) (signal : NewsSignal) : NewsClient × List NewsSignal :=
  if c.stop then ({ c with phase := .ended }, []) else ({ c with phase := .dialing }, [signal])

/-- A step of the loop and its calls of `on_event`; `none` where it cannot occur. -/
def NewsClient.step (c : NewsClient) : ClientEvent → Option (NewsClient × List NewsSignal)
  | .begin =>
    if c.phase = .created ∧ !c.cancelled then some (c.top .connecting) else none
  | .opened =>
    if c.phase = .dialing ∧ !c.cancelled then some ({ c with phase := .consuming }, [.connected])
    else none
  | .rejected detail =>
    if c.phase = .dialing ∧ !c.cancelled then
      some ({ c with phase := .ended, stop := true }, [.authFail detail])
    else none
  | .dropped =>
    -- also on the way out of a cancelled connection
    if c.phase = .dialing ∨ c.phase = .consuming then
      some ({ c with phase := .waiting }, [.disconnected])
    else none
  | .closed =>
    if c.phase = .consuming ∧ !c.cancelled then some ({ c with phase := .pausing }, [.disconnected])
    else none
  | .message => if c.phase = .consuming ∧ !c.cancelled then some (c, [.message]) else none
  | .badFrame => if c.phase = .consuming ∧ !c.cancelled then some (c, [.parseError]) else none
  | .again =>
    if c.phase = .pausing ∨ c.phase = .waiting then some (c.top .reconnectAttempt) else none
  | .unwind =>
    if c.phase ≠ .ended ∧ c.cancelled then some ({ c with phase := .ended }, []) else none

inductive NewsState where
  | stopped
  | connecting
  | connected
  | error
  deriving DecidableEq

/-- The state is `"connecting"` or `"connected"`. -/
def NewsState.active (s : NewsState) : Bool := s = .connecting ∨ s = .connected

/-- A `TradingNewsWSSource`. -/
structure NewsSource where
  /-- Of its config. -/
  freshnessSeconds : ℤ
  /-- `_client`, with its task. -/
  client : Option ℕ := none

/-- What a config dict is to the source: `TradingNewsWSConfig(**config)` and its
freshness window, or the exception; and the dict with another window. -/
structure NewsConfigs (κ : Type) where
  validate : κ → Except PyErr ℤ
  withFreshness : κ → ℤ → κ

/-- The manager, with every client ever started. -/
structure NewsManager (κ : Type) where
  state : NewsState := .stopped
  source : Option NewsSource := none
  /-- The config that built the source. -/
  sourceConfig : Option κ := none
  runningConfig : Option κ := none
  totalRecv : ℕ := 0
  reconnectAttempts : ℕ := 0
  lastError : Option String := none
  firstMsgPending : Bool := false
  clients : List NewsClient := []
  /-- A `stop` waits for this client's task, with the lock. -/
  stopping : Option ℕ := none

variable {κ : Type}

/-- `record_event`. -/
def NewsManager.record (m : NewsManager κ) : NewsSignal → NewsManager κ
  | .message => { m with totalRecv := m.totalRecv + 1, firstMsgPending := false }
  | .reconnectAttempt => { m with reconnectAttempts := m.reconnectAttempts + 1 }
  | .connected =>
    { m with state := .connected, firstMsgPending := true, reconnectAttempts := 0, lastError := none }
  | .disconnected => if m.state ≠ .stopped then { m with state := .connecting } else m
  | .authFail detail => { m with state := .error, lastError := some detail }
  | .connecting => if m.state ≠ .stopped then { m with state := .connecting } else m
  | .parseError => m

def NewsManager.client (m : NewsManager κ) : Option ℕ := m.source.bind NewsSource.client

/-- `_source` was built from this config. -/
def NewsManager.builtFrom [BEq κ] (m : NewsManager κ) (config : κ) : Bool :=
  m.source.isSome && m.sourceConfig.any (· == config)

/-- The source `start` goes on with, the one there is or a new one. -/
def NewsManager.prepare [BEq κ] (configs : NewsConfigs κ) (m : NewsManager κ) (config : κ) :
    Except PyErr (NewsManager κ) :=
  if m.builtFrom config then .ok m
  else
    (configs.validate config).map fun freshness =>
      { m with
        source := some { freshnessSeconds := freshness }
        sourceConfig := some config
        totalRecv := 0
        reconnectAttempts := 0 }

/-- `start_async`, where `secret` is what resolving the key gives. -/
def NewsManager.startAsync (m : NewsManager κ) (secret : Except PyErr Unit) :
    Except PyErr (NewsManager κ) :=
  match m.source with
  | none => .error .attributeError
  | some source =>
    if source.client.isSome then .ok m
    else
      secret.map fun _ =>
        { m with
          clients := m.clients ++ [{ freshnessSeconds := source.freshnessSeconds }]
          source := some { source with client := some m.clients.length } }

/-- `start`: the manager it leaves, and whether it raises. -/
def NewsManager.start [BEq κ] (configs : NewsConfigs κ) (m : NewsManager κ) (config : κ)
    (secret : Except PyErr Unit) : NewsManager κ × Except PyErr Unit :=
  if m.state.active then (m, .ok ())
  else
    match m.prepare configs config with
    | .error e => (m, .error e)
    | .ok m =>
      let m : NewsManager κ :=
        { m with
          runningConfig := some config
          state := .connecting
          lastError := none
          firstMsgPending := false }
      match m.startAsync secret with
      | .error e => ({ m with state := .error, lastError := some e.name }, .error e)
      | .ok m => (m, .ok ())

/-- `stop` after `stop_async`. -/
def NewsManager.stopDone (m : NewsManager κ) : NewsManager κ :=
  { m with
    source := m.source.map fun source => { source with client := none }
    state := .stopped
    runningConfig := none
    firstMsgPending := false
    stopping := none }

def NewsManager.setClient (m : NewsManager κ) (i : ℕ) (c : NewsClient) : NewsManager κ :=
  { m with clients := m.clients.set i c }

/-- `stop` up to its await, and on where the task is done already. -/
def NewsManager.stop (m : NewsManager κ) : NewsManager κ :=
  if m.state = .stopped then m
  else
    match m.client with
    | none => m.stopDone
    | some i =>
      match m.clients[i]? with
      | none => m.stopDone
      | some c =>
        if c.phase = .ended then m.stopDone
        else { m.setClient i { c with stop := true, cancelled := true } with stopping := some i }

/-- `apply_freshness_seconds`. -/
def NewsManager.applyFreshness (configs : NewsConfigs κ) (m : NewsManager κ) (seconds : ℤ) :
    NewsManager κ :=
  match m.source with
  | none => m
  | some source =>
    { m with
      source := some { source with freshnessSeconds := seconds }
      clients := source.client.elim m.clients fun i =>
        m.clients.modify i fun c => { c with freshnessSeconds := seconds }
      runningConfig := m.runningConfig.map (configs.withFreshness · seconds)
      sourceConfig := m.sourceConfig.map (configs.withFreshness · seconds) }

inductive NewsManagerEvent (κ : Type) where
  | start (config : κ) (secret : Except PyErr Unit)
  | stop
  /-- A `stop` goes on once the task it cancelled is done. -/
  | joined
  | applyFreshness (seconds : ℤ)
  | client (i : ℕ) (event : ClientEvent)

/-- What one event makes of the manager; `none` where it cannot occur. -/
def NewsManager.step [BEq κ] (configs : NewsConfigs κ) (m : NewsManager κ) :
    NewsManagerEvent κ → Option (NewsManager κ)
  | .start config secret => if m.stopping = none then some (m.start configs config secret).1 else none
  | .stop => if m.stopping = none then some m.stop else none
  | .joined =>
    match m.stopping with
    | some i =>
      if m.clients[i]?.any fun c => c.phase = .ended then some m.stopDone else none
    | none => none
  | .applyFreshness seconds => some (m.applyFreshness configs seconds)
  | .client i event =>
    match m.clients[i]? with
    | some c => (c.step event).map fun r => r.2.foldl NewsManager.record (m.setClient i r.1)
    | none => none

end OpenPoly
