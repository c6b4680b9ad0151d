import Mathlib.Data.List.Basic

/-! `schedulePoll` and `usePoll` of the Activity tabs: the timer, the run in flight with its
abort signal, and the state the runs write. -/

namespace OpenPoly

/-- One run: its `AbortController`, its deadline and its callbacks. -/
structure TaskRun where
  /-- The job that calls the task has run. -/
  begun : Bool := false
  /-- The task's promise is settled. -/
  settled : Bool := false
  aborted : Bool := false
  /-- The deadline's timeout is pending. -/
  deadline : Bool := true
  /-- The `finally` callback has run. -/
  finished : Bool := false
  deriving DecidableEq

/-- The handles of one `schedulePoll`. Its runs, oldest first, stay as a record. -/
structure Poller where
  /-- The handle the last `setTimeout` of `arm` gave. -/
  timer : Option ℕ := none
  /-- The handle the next one gives. -/
  nextTimer : ℕ := 0
  /-- The timeouts of `arm` that have neither fired nor been cleared. -/
  pending : List ℕ := []
  /-- The run whose controller `current` is. -/
  current : Option ℕ := none
  stopped : Bool := false
  runs : List TaskRun := []
  deriving DecidableEq

/-- `clearTimeout(timer)`. -/
def Poller.clearTimer (p : Poller) : Poller :=
  { p with pending := p.pending.filter fun h => p.timer ≠ some h }

def Poller.arm (p : Poller) : Poller :=
  if p.stopped then p.clearTimer
  else
    { p.clearTimer with
      timer := some p.nextTimer, nextTimer := p.nextTimer + 1, pending := p.nextTimer :: p.clearTimer.pending }

def Poller.run (force shouldRun : Bool) (p : Poller) : Poller :=
  if p.stopped || p.current.isSome then p
  else if !force && !shouldRun then p.arm
  else { p.clearTimer with current := some p.runs.length, runs := p.runs ++ [{}] }

/-- The run `k`, changed. -/
def Poller.note (p : Poller) (k : ℕ) (f : TaskRun → TaskRun) : Poller :=
  { p with runs := p.runs.modify k f }

/-- The `finally` callback of run `k`. -/
def Poller.finish (p : Poller) (k : ℕ) : Poller :=
  let p := p.note k ({ · with deadline := false, finished := true })
  { p with current := if p.current = some k then none else p.current }.arm

def Poller.stop (p : Poller) : Poller :=
  let p := { p.clearTimer with stopped := true }
  match p.current with
  | some k => p.note k ({ · with aborted := true })
  | none => p

inductive PollEvent where
  | kick (force shouldRun : Bool)
  /-- A timeout of `arm` fires. -/
  | fired (timer : ℕ) (shouldRun : Bool)
  /-- The job that `run` queued calls the task. -/
  | begun (k : ℕ)
  | settled (k : ℕ)
  /-- The deadline of run `k` fires. -/
  | expired (k : ℕ)
  /-- The `finally` callback of run `k`, once its race is settled. -/
  | finished (k : ℕ)
  | stop

/-- What an event makes of the poller; `none` where it cannot occur. The job that calls the
task is queued before any that an abort queues, so it has run by the `finally` callback. -/
def Poller.step (p : Poller) : PollEvent → Option Poller
  | .kick force shouldRun => some (p.run force shouldRun)
  | .fired timer shouldRun =>
    if timer ∈ p.pending then some ({ p with pending := p.pending.erase timer }.run false shouldRun) else none
  | .begun k => if p.runs[k]?.any (!·.begun) then some (p.note k ({ · with begun := true })) else none
  | .settled k =>
    if p.runs[k]?.any fun r => r.begun && !r.settled then some (p.note k ({ · with settled := true })) else none
  | .expired k =>
    if p.runs[k]?.any (·.deadline) then some (p.note k ({ · with aborted := true, deadline := false })) else none
  | .finished k =>
    if p.runs[k]?.any fun r => r.begun && (r.settled || r.aborted) && !r.finished then some (p.finish k) else none
  | .stop => some p.stop

variable {T : Type}

inductive PollStatus where
  | loading
  | ready
  | error
  deriving DecidableEq

/-- The three `useState` values. -/
structure PollResult (T : Type) where
  data : Option T := none
  status : PollStatus := .loading
  error : Option String := none
  deriving DecidableEq

/-- What the `try` of `refresh` writes, or its `catch`. -/
def PollResult.write (view : PollResult T) : Except String T → PollResult T
  | .ok result => { data := some result, status := .ready, error := none }
  | .error message => { view with status := .error, error := some message }

/-- A call of `refresh`: what its race of the fetch and the abort came to, and whether it
has returned. -/
structure Refresh (T : Type) where
  run : ℕ
  /-- The run of the poller that called it. -/
  signal : ℕ
  race : Option (Except String T) := none
  returned : Bool := false

def Refresh.settle (outcome : Except String T) (c : Refresh T) : Refresh T :=
  { c with race := c.race.orElse fun _ => some outcome }

/-- The listener that `refresh` adds to its signal. -/
def Refresh.onAbort (k : ℕ) (reason : String) (c : Refresh T) : Refresh T :=
  if c.signal = k then c.settle (.error reason) else c

/-- One run of the effect: its closure. Its calls of `refresh`, in order, stay as a record. -/
structure PollEffect (T : Type) where
  poller : Poller := {}
  cancelled : Bool := false
  latestRun : ℕ := 0
  calls : List (Refresh T) := []

/-- The calls once the signal of run `k` has dispatched its abort, which it does once. -/
def PollEffect.abort (e : PollEffect T) (k : ℕ) (reason : String) : List (Refresh T) :=
  if e.poller.runs[k]?.any (!·.aborted) then e.calls.map (Refresh.onAbort k reason) else e.calls

def PollEffect.start : PollEffect T where
  poller := ({} : Poller).run true true

/-- The function the effect returns; `reason` is the text of the abort it ends in. -/
def PollEffect.cleanup (reason : String) (e : PollEffect T) : PollEffect T :=
  { e with
    cancelled := true
    poller := e.poller.stop
    calls := (e.poller.current.map fun k => e.abort k reason).getD e.calls }

inductive EffectEvent (T : Type) where
  | visibilityChange (visible : Bool)
  | fired (timer : ℕ) (visible : Bool)
  /-- The poller calls `refresh` for its run `k`. -/
  | begun (k : ℕ)
  /-- The fetch of call `i` settles, or the fetcher throws. -/
  | fetched (i : ℕ) (outcome : Except String T)
  /-- The deadline of run `k` fires; `reason` is its text. -/
  | expired (k : ℕ) (reason : String)
  /-- Call `i` goes on after its race, and returns. -/
  | resumed (i : ℕ)
  | finished (k : ℕ)

/-- What an event makes of an effect, and what it writes. -/
def PollEffect.step (e : PollEffect T) : EffectEvent T → Option (PollEffect T × Option (Except String T))
  | .visibilityChange visible =>
    if e.cancelled then none
    else some ({ e with poller := if visible then e.poller.run false visible else e.poller }, none)
  | .fired timer visible => (e.poller.step (.fired timer visible)).map ({ e with poller := · }, none)
  | .begun k =>
    (e.poller.step (.begun k)).map fun p =>
      ({ e with poller := p, latestRun := e.latestRun + 1,
                calls := e.calls ++ [{ run := e.latestRun + 1, signal := k }] }, none)
  | .fetched i outcome => some ({ e with calls := e.calls.modify i (Refresh.settle outcome) }, none)
  | .expired k reason =>
    (e.poller.step (.expired k)).map ({ e with poller := ·, calls := e.abort k reason }, none)
  | .resumed i =>
    match e.calls[i]? with
    | some { run, signal, race := some outcome, returned := false } =>
      let stale := e.cancelled || run ≠ e.latestRun
      (e.poller.step (.settled signal)).map fun p =>
        ({ e with poller := p, calls := e.calls.modify i ({ · with returned := true }) },
          if stale then none else some outcome)
    | _ => none
  | .finished k => (e.poller.step (.finished k)).map ({ e with poller := · }, none)

/-- The hook. Its effects, newest first, and the count of its writes stay as a record. -/
structure UsePoll (T : Type) where
  view : PollResult T := {}
  writes : ℕ := 0
  mounted : Bool := true
  effects : List (PollEffect T) := [PollEffect.start]

def UsePoll.mount : UsePoll T := {}

inductive HookEvent (T : Type) where
  /-- An event of the `j`-th newest effect. -/
  | effect (j : ℕ) (e : EffectEvent T)
  /-- Rendered with another `intervalMs`. -/
  | rerun (reason : String)
  | unmount (reason : String)

def UsePoll.apply (h : UsePoll T) (j : ℕ) (e : PollEffect T) : Option (Except String T) → UsePoll T
  | some outcome =>
    { h with view := h.view.write outcome, writes := h.writes + 1, effects := h.effects.set j e }
  | none => { h with effects := h.effects.set j e }

def UsePoll.step (h : UsePoll T) : HookEvent T → Option (UsePoll T)
  | .effect j ev => (h.effects[j]?.bind (·.step ev)).map fun r => h.apply j r.1 r.2
  | .rerun reason =>
    if h.mounted then some { h with effects := .start :: h.effects.modifyHead (PollEffect.cleanup reason) } else none
  | .unmount reason =>
    if h.mounted then
      some { h with mounted := false, effects := h.effects.modifyHead (PollEffect.cleanup reason) }
    else none

end OpenPoly
