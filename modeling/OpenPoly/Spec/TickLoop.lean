import Mathlib.Data.List.Basic

/-! `TickLoopMonitor`: starting and stopping the task that ticks. An event is what one
task does between two awaits; a call of `stop` waits for the loop it cancelled. -/

namespace OpenPoly

inductive LoopStage where
  /-- Created, with its first step to come. -/
  | created
  /-- Inside `_tick_once`. -/
  | ticking
  /-- Waiting for the stop event or the interval. -/
  | waiting
  | done
  deriving DecidableEq, Repr

/-- A loop task; a cancelled one ends when it next runs. -/
structure TickTask where
  phase : LoopStage
  cancelled : Bool
  deriving DecidableEq, Repr

def TickTask.alive (t : TickTask) : Bool := t.phase ≠ .done

/-- A call of `stop`. -/
inductive StopCall where
  /-- It awaits the loop it has cancelled. -/
  | joining (task : ℕ)
  /-- `_after_stop`. -/
  | draining
  | returned
  deriving DecidableEq, Repr

/-- The monitor, with every loop it has created and every `stop` called on it. -/
structure TickMonitor where
  running : Bool
  /-- The stop event is set. -/
  stopSet : Bool
  /-- `_task`. -/
  task : Option ℕ
  tasks : List TickTask
  stops : List StopCall
  ticks : ℕ
  /-- Ticks that raised, and were logged. -/
  failures : ℕ
  deriving DecidableEq, Repr

def TickMonitor.init : TickMonitor := ⟨false, false, none, [], [], 0, 0⟩

/-- `_task` is there and not done. -/
def TickMonitor.tracksLoop (m : TickMonitor) : Bool :=
  (m.task.bind fun i => m.tasks[i]?).any TickTask.alive

def TickMonitor.start (m : TickMonitor) : TickMonitor :=
  if m.tracksLoop then m
  else
    { m with
      running := true
      stopSet := false
      task := some m.tasks.length
      tasks := m.tasks ++ [⟨.created, false⟩] }

/-- `stop`, up to its first wait. -/
def TickMonitor.callStop (m : TickMonitor) : TickMonitor :=
  match m.task with
  | none => { m with stops := m.stops ++ [.draining] }
  | some i =>
    { m with
      stopSet := true
      tasks := m.tasks.modify i fun t => { t with cancelled := true }
      stops := m.stops ++ [.joining i] }

def TickMonitor.resume (m : TickMonitor) (i : ℕ) (t : TickTask) (raised : Bool) : TickMonitor :=
  if t.cancelled then { m with tasks := m.tasks.set i { t with phase := .done } }
  else
    match t.phase with
    | .ticking =>
      { m with
        tasks := m.tasks.set i { t with phase := .waiting }
        failures := if raised then m.failures + 1 else m.failures }
    | .created | .waiting =>
      if m.stopSet then { m with tasks := m.tasks.set i { t with phase := .done } }
      else { m with tasks := m.tasks.set i { t with phase := .ticking }, ticks := m.ticks + 1 }
    | .done => m

inductive TickLoopEvent where
  | start
  | stop
  | resume (i : ℕ) (raised : Bool)
  /-- The `stop` at this place sees its loop end. -/
  | joined (j : ℕ)
  /-- Its `_after_stop` ends, one way or another. -/
  | stopped (j : ℕ)

def TickMonitor.step (m : TickMonitor) : TickLoopEvent → Option TickMonitor
  | .start => some m.start
  | .stop => some m.callStop
  | .resume i raised =>
    match m.tasks[i]? with
    | some t => if t.alive then some (m.resume i t raised) else none
    | none => none
  | .joined j =>
    match m.stops[j]? with
    | some (.joining i) =>
      if m.tasks[i]?.any TickTask.alive then none
      else some { m with task := none, stops := m.stops.set j .draining }
    | _ => none
  | .stopped j =>
    match m.stops[j]? with
    | some .draining => some { m with running := false, stops := m.stops.set j .returned }
    | _ => none

end OpenPoly
