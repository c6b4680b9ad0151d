import OpenPoly.Spec.NewsManager

/-! `NewsWSClient.run_forever` and its delays: what each connection comes to, and what the
loop waits before the next. -/

namespace OpenPoly

inductive AttemptEnd where
  /-- `_consume` returned: the server closed, or a stop was seen. -/
  | closed
  /-- `ConnectionClosed`, `WebSocketException` or `OSError`. -/
  | dropped
  /-- Any other exception. -/
  | failed
  /-- `InvalidStatus`. -/
  | rejected
  deriving DecidableEq

/-- One attempt to connect, and the wait that ran to its end after it. -/
structure WsAttempt where
  connected : Bool := false
  ending : Option AttemptEnd := none
  wait : Option ℚ := none
  deriving DecidableEq

/-- The loop. Its attempts, newest first, are a record for the reader. -/
structure WsLoop where
  initialBackoff : ℚ
  maxBackoff : ℚ
  backoff : ℚ
  phase : ClientPhase := .created
  /-- `_stop` is set. -/
  stop : Bool := false
  attempts : List WsAttempt := []

def WsLoop.start (initialBackoff maxBackoff : ℚ) : WsLoop where
  initialBackoff := initialBackoff
  maxBackoff := maxBackoff
  backoff := initialBackoff

inductive WsEvent where
  /-- The task takes its first step. -/
  | begin
  | opened
  /-- The attempt is left with an exception, `InvalidStatus` among them. -/
  | raised (ending : AttemptEnd)
  /-- `_consume` returns. -/
  | closed
  /-- `sleep(0)` returns. -/
  | yielded
  /-- `_wait_backoff` times out: the delay has passed. -/
  | waited
  /-- `_wait_backoff` returns on the stop. -/
  | woken
  /-- `stop()`. -/
  | stop
  /-- The task is cancelled. -/
  | cancel

def WsLoop.note (s : WsLoop) (f : WsAttempt → WsAttempt) : WsLoop :=
  { s with attempts := s.attempts.modifyHead f }

def WsLoop.top (s : WsLoop) : WsLoop :=
  if s.stop then { s with phase := .ended } else { s with phase := .dialing, attempts := {} :: s.attempts }

/-- After `_wait_backoff`. -/
def WsLoop.grow (s : WsLoop) : WsLoop := { s with backoff := min (s.backoff * 2) s.maxBackoff }

/-- What an event makes of the loop; `none` where it cannot occur. -/
def WsLoop.step (s : WsLoop) : WsEvent → Option WsLoop
  | .begin => if s.phase = .created then some s.top else none
  | .opened =>
    if s.phase = .dialing then
      some { s.note ({ · with connected := true }) with phase := .consuming, backoff := s.initialBackoff }
    else none
  | .raised ending =>
    if s.phase = .dialing ∨ s.phase = .consuming then
      match ending with
      | .closed => none
      | .rejected => some { s.note ({ · with ending := some .rejected }) with phase := .ended, stop := true }
      | ending => some { s.note ({ · with ending := some ending }) with phase := .waiting }
    else none
  | .closed =>
    if s.phase = .consuming then some { s.note ({ · with ending := some .closed }) with phase := .pausing } else none
  | .yielded => if s.phase = .pausing then some s.top else none
  | .waited =>
    if s.phase = .waiting then some (s.note ({ · with wait := some s.backoff })).grow.top else none
  | .woken => if s.phase = .waiting ∧ s.stop then some s.grow.top else none
  | .stop => some { s with stop := true }
  | .cancel => if s.phase ≠ .ended then some { s with phase := .ended } else none

end OpenPoly
