import Mathlib.Data.List.Basic

/-! `WriteBehindWriter`: a bounded queue, the task that drains it in batches, and
`stop`, which cancels that task, waits for the batch in flight and flushes what is
left. An event is what one task does without yielding the event loop; several
calls of `start` and `stop` may be under way at once. -/

namespace OpenPoly

structure WriterConfig where
  /-- No bound where it is 0. -/
  queueMaxsize : ℕ := 5000
  batchSize : ℕ := 200

/-- Where one `_write` is. -/
inductive WriteStage where
  /-- Its task is created, and has yet to take its first step. -/
  | scheduled
  /-- The sink has been called, in a worker thread. -/
  | inSink
  | written
  | failed
  deriving DecidableEq

structure WriteTask (ρ : Type) where
  batch : List ρ
  stage : WriteStage

def WriteTask.ended {ρ : Type} (w : WriteTask ρ) : Bool := w.stage = .written ∨ w.stage = .failed

/-- Where a `_drain_loop` is. -/
inductive LoopPhase where
  /-- At `queue.get`. -/
  | getting
  /-- In `_write_tracked`, awaiting this write. -/
  | writing (write : ℕ)
  | ended
  deriving DecidableEq

structure DrainLoop where
  phase : LoopPhase := .getting
  /-- `cancel` was called on the task. -/
  cancelled : Bool := false

/-- Where a call of `stop` is. -/
inductive StopPhase where
  /-- Awaiting the cancelled loop. -/
  | joining (loop : ℕ)
  /-- In `_drain_inflight`. -/
  | draining (write : ℕ)
  /-- In `_flush`, awaiting its write. -/
  | flushing (write : ℕ)
  | returned
  deriving DecidableEq

/-- The writer with every task it has created. The last four fields are a record
for the reader of it: the rows offered to `enqueue`, those it took and those it
dropped, and the batches in the order the sink was called with them. -/
structure Writer (ρ : Type) where
  queue : List ρ := []
  /-- `_task`. -/
  task : Option ℕ := none
  /-- `_inflight`. -/
  inflight : Option ℕ := none
  dropped : ℕ := 0
  written : ℕ := 0
  errors : ℕ := 0
  loops : List DrainLoop := []
  writes : List (WriteTask ρ) := []
  stops : List StopPhase := []
  offered : List ρ := []
  accepted : List ρ := []
  lost : List ρ := []
  handed : List (List ρ) := []

variable {ρ : Type}

def WriterConfig.full (config : WriterConfig) (queue : List ρ) : Bool :=
  0 < config.queueMaxsize ∧ config.queueMaxsize ≤ queue.length

def Writer.enqueue (m : Writer ρ) (config : WriterConfig) (row : ρ) : Writer ρ :=
  if config.full m.queue then
    { m with dropped := m.dropped + 1, offered := m.offered ++ [row], lost := m.lost ++ [row] }
  else
    { m with
      queue := m.queue ++ [row]
      offered := m.offered ++ [row]
      accepted := m.accepted ++ [row] }

def Writer.loopAlive (m : Writer ρ) (loop : ℕ) : Bool :=
  m.loops[loop]?.any fun l => l.phase ≠ .ended

def Writer.start (m : Writer ρ) : Writer ρ :=
  if m.task.any m.loopAlive then m
  else { m with loops := m.loops ++ [{}], task := some m.loops.length }

def Writer.setLoop (m : Writer ρ) (loop : ℕ) (phase : LoopPhase) (cancelled : Bool) : Writer ρ :=
  { m with loops := m.loops.set loop ⟨phase, cancelled⟩ }

def Writer.setStage (m : Writer ρ) (write : ℕ) (batch : List ρ) (stage : WriteStage) : Writer ρ :=
  { m with writes := m.writes.set write ⟨batch, stage⟩ }

def Writer.writeEnded (m : Writer ρ) (write : ℕ) : Bool :=
  m.writes[write]?.any WriteTask.ended

/-- The loop takes a batch off the queue and creates its write, tracked. -/
def Writer.take (m : Writer ρ) (config : WriterConfig) (loop : ℕ) : Writer ρ :=
  let size := max 1 config.batchSize
  { m with
    queue := m.queue.drop size
    writes := m.writes ++ [⟨m.queue.take size, .scheduled⟩]
    inflight := some m.writes.length
    loops := m.loops.set loop ⟨.writing m.writes.length, false⟩ }

/-- A `_write` calls the sink. -/
def Writer.begin (m : Writer ρ) (write : ℕ) (batch : List ρ) : Writer ρ :=
  { m.setStage write batch .inSink with handed := m.handed ++ [batch] }

def Writer.finish (m : Writer ρ) (write : ℕ) (batch : List ρ) (ok : Bool) : Writer ρ :=
  if ok then { m.setStage write batch .written with written := m.written + batch.length }
  else { m.setStage write batch .failed with errors := m.errors + 1 }

/-- The `finally` of `_write_tracked`. -/
def Writer.untrack (m : Writer ρ) (write : ℕ) : Writer ρ :=
  { m with inflight := if m.writeEnded write then none else m.inflight }

/-- `_flush` up to its await: it calls the sink at once, in no task of its own. -/
def Writer.flush (m : Writer ρ) : Writer ρ × StopPhase :=
  if m.queue = [] then (m, .returned)
  else
    ({ m with
      queue := []
      writes := m.writes ++ [⟨m.queue, .inSink⟩]
      handed := m.handed ++ [m.queue] }, .flushing m.writes.length)

/-- `_drain_inflight` up to its await, and on where there is nothing to wait for. -/
def Writer.drainInflight (m : Writer ρ) : Writer ρ × StopPhase :=
  match m.inflight with
  | none => m.flush
  | some write =>
    if m.writeEnded write then ({ m with inflight := none } : Writer ρ).flush
    else (m, .draining write)

def Writer.setStop (m : Writer ρ × StopPhase) (stop : ℕ) : Writer ρ :=
  { m.1 with stops := m.1.stops.set stop m.2 }

def Writer.stop (m : Writer ρ) : Writer ρ :=
  match m.task with
  | some loop =>
    { m with
      loops := m.loops.modify loop fun l => { l with cancelled := true }
      stops := m.stops ++ [.joining loop] }
  | none =>
    let (m, phase) := m.drainInflight
    { m with stops := m.stops ++ [phase] }

inductive WriterEvent (ρ : Type) where
  | enqueue (row : ρ)
  | start
  /-- A loop gets a row, and the rest of its batch. -/
  | take (loop : ℕ)
  /-- The task of a write takes its first step. -/
  | begin (write : ℕ)
  /-- Its thread is through. -/
  | finish (write : ℕ) (ok : Bool)
  /-- A loop goes on after its write. -/
  | resume (loop : ℕ)
  /-- The cancellation reaches a loop. -/
  | unwind (loop : ℕ)
  | stop
  /-- A `stop` goes on once the loop it cancelled is done. -/
  | joined (stop : ℕ)
  /-- It goes on once the write in flight is, or without it after ten seconds. -/
  | drained (stop : ℕ)
  | timedOut (stop : ℕ)
  /-- Its own write is through. -/
  | flushed (stop : ℕ)

/-- What one event makes of the writer; `none` where it cannot occur. -/
def Writer.step (config : WriterConfig) (m : Writer ρ) : WriterEvent ρ → Option (Writer ρ)
  | .enqueue row => some (m.enqueue config row)
  | .start => some m.start
  | .take loop =>
    match m.loops[loop]? with
    | some ⟨.getting, false⟩ => if m.queue = [] then none else some (m.take config loop)
    | _ => none
  | .begin write =>
    match m.writes[write]? with
    | some ⟨batch, .scheduled⟩ => some (m.begin write batch)
    | _ => none
  | .finish write ok =>
    match m.writes[write]? with
    | some ⟨batch, .inSink⟩ => some (m.finish write batch ok)
    | _ => none
  | .resume loop =>
    match m.loops[loop]? with
    | some ⟨.writing write, false⟩ =>
      if m.writeEnded write then some ((m.untrack write).setLoop loop .getting false) else none
    | _ => none
  | .unwind loop =>
    match m.loops[loop]? with
    | some ⟨.getting, true⟩ => some (m.setLoop loop .ended true)
    | some ⟨.writing write, true⟩ =>
      -- the event loop is first come, first served: the write's first step was
      -- scheduled when it was created, and the cancellation after that
      if m.writes[write]?.any fun w => w.stage = .scheduled then none
      else some ((m.untrack write).setLoop loop .ended true)
    | _ => none
  | .stop => some m.stop
  | .joined stop =>
    match m.stops[stop]? with
    | some (.joining loop) =>
      if m.loopAlive loop then none
      else some (Writer.setStop ({ m with task := none } : Writer ρ).drainInflight stop)
    | _ => none
  | .drained stop =>
    match m.stops[stop]? with
    | some (.draining write) =>
      if m.writeEnded write then
        some (Writer.setStop ({ m with inflight := none } : Writer ρ).flush stop)
      else none
    | _ => none
  | .timedOut stop =>
    match m.stops[stop]? with
    | some (.draining _) => some (Writer.setStop m.flush stop)
    | _ => none
  | .flushed stop =>
    match m.stops[stop]? with
    | some (.flushing write) =>
      if m.writeEnded write then some (Writer.setStop (m, .returned) stop) else none
    | _ => none

end OpenPoly
