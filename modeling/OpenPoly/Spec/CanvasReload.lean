import OpenPoly.Spec.Canvas
import OpenPoly.Spec.NewsManager
import Mathlib.Logic.Function.Basic

/-! The canvas reload: what an accepted template starts in the background, with the
restart of the market source under its lock. An event is what one task does without
yielding the event loop; the locks around the section swaps never make one wait. -/

namespace OpenPoly

/-- A `_apply_canvas_reload`. -/
structure ReloadTask where
  old : Option PyDict
  new : PyDict
  /-- It has yet to take its first step. -/
  spawned : Bool := true

/-- Who called the market source's `stop`. -/
inductive StopCaller where
  | reload (task : ℕ)
  | operator
  deriving DecidableEq

/-- A call that waits for the market source's lock. -/
inductive LockWaiter (κ : Type) where
  | stop (caller : StopCaller)
  | start (task : ℕ) (config : κ)

/-- What of the process reads its config from the canvas. -/
structure CanvasProcess (κ : Type) where
  /-- The template on disk. -/
  persisted : Option PyDict
  /-- The configs of the embedding, analyzer, entry and exit sections, and the
  database's. -/
  sections : SectionType → κ
  newsMaxAge : ℤ
  news : NewsManager PyDict
  /-- The market source's config, unless it is stopped. -/
  market : Option κ
  /-- Its last poll has failed: the state is `"error"`, and otherwise `"running"`. -/
  pollFailed : Bool := false
  /-- A `stop` that holds the lock until the source's tasks have ended. -/
  joining : Option StopCaller := none
  waiters : List (LockWaiter κ) := []
  tasks : List ReloadTask := []
  operatorStopped : Bool := false
  /-- A reload has failed to build a section. -/
  buildError : Bool := false

variable {κ : Type}

/-- The section's config in the stored template has changed, to Python's `!=`. -/
def ReloadTask.differs (t : ReloadTask) (s : SectionType) : Bool :=
  !(storedConfig t.old s).pyEq (storedConfig (some t.new) s)

/-- One section of the reload: built from the template on disk, and swapped in. -/
def CanvasProcess.rebuild (classes : ConfigClasses κ) (fails : SectionType → Bool) (t : ReloadTask)
    (m : CanvasProcess κ) (s : SectionType) : CanvasProcess κ :=
  if t.differs s then
    if fails s then { m with buildError := true }
    else { m with sections := Function.update m.sections s (canvasConfig classes m.persisted s) }
  else m

/-- `_ORCHESTRATOR_SECTION_TYPES`. -/
def orchestratorSections : List SectionType := [.embedding, .analyzer, .entry]

def laterSections : List SectionType := [.database, .exit]

def CanvasProcess.reloadNews (classes : ConfigClasses κ) (configs : NewsConfigs PyDict) (t : ReloadTask)
    (m : CanvasProcess κ) : CanvasProcess κ :=
  if t.differs .newsSource then
    let seconds := classes.freshnessSeconds (canvasConfig classes m.persisted .newsSource)
    { m with newsMaxAge := seconds, news := m.news.applyFreshness configs seconds }
  else m

/-- The rest of a reload, after the market source. -/
def CanvasProcess.finish (classes : ConfigClasses κ) (fails : SectionType → Bool) (m : CanvasProcess κ)
    (task : ℕ) : CanvasProcess κ :=
  match m.tasks[task]? with
  | some t => laterSections.foldl (CanvasProcess.rebuild classes fails t) m
  | none => m

/-- A reload goes on after its `stop`: it reads the config, and starts the source
or waits for the lock. -/
def CanvasProcess.stopped (classes : ConfigClasses κ) (fails : SectionType → Bool) (m : CanvasProcess κ)
    (task : ℕ) : CanvasProcess κ :=
  let config := canvasConfig classes m.persisted .marketSource
  if m.waiters.isEmpty then
    ({ m with market := some config, pollFailed := false } : CanvasProcess κ).finish classes fails task
  else { m with waiters := m.waiters ++ [.start task config] }

def CanvasProcess.lockFree (m : CanvasProcess κ) : Bool := m.joining.isNone && m.waiters.isEmpty

def CanvasProcess.running (m : CanvasProcess κ) : Bool := m.market.isSome && !m.pollFailed

/-- `stop` of a source that is not stopped. -/
def CanvasProcess.callStop (m : CanvasProcess κ) (caller : StopCaller) : CanvasProcess κ :=
  if m.lockFree then { m with joining := some caller }
  else { m with waiters := m.waiters ++ [.stop caller] }

/-- The first step of a reload, up to its first wait. -/
def CanvasProcess.reload (classes : ConfigClasses κ) (configs : NewsConfigs PyDict)
    (fails : SectionType → Bool) (m : CanvasProcess κ) (task : ℕ) (t : ReloadTask) : CanvasProcess κ :=
  let m : CanvasProcess κ := { m with tasks := m.tasks.set task { t with spawned := false } }
  if countable t.old then
    let m := orchestratorSections.foldl (CanvasProcess.rebuild classes fails t) m
    let m := m.reloadNews classes configs t
    if t.differs .marketSource && m.running then m.callStop (.reload task)
    else m.finish classes fails task
  else m

def CanvasProcess.put (m : CanvasProcess κ) (template : PyDict) : CanvasProcess κ :=
  { m with persisted := some template, tasks := m.tasks ++ [{ old := m.persisted, new := template }] }

inductive CanvasEvent where
  /-- A PUT of this body is accepted. -/
  | put (body : PyDict)
  /-- A reload takes its first step, where building a section may fail. -/
  | reload (task : ℕ) (fails : SectionType → Bool)
  /-- The tasks of the market source have ended. -/
  | joined (fails : SectionType → Bool)
  /-- The first of those waiting gets the lock. -/
  | grant (fails : SectionType → Bool)
  | operatorStop
  /-- A poll of the market source ends. -/
  | polled (ok : Bool)

/-- What one event makes of the process; `none` where it cannot occur. -/
def CanvasProcess.step (classes : ConfigClasses κ) (configs : NewsConfigs PyDict) (m : CanvasProcess κ) :
    CanvasEvent → Option (CanvasProcess κ)
  | .put body => if templateShaped body then some (m.put (withoutRev body)) else none
  | .reload task fails =>
    match m.tasks[task]? with
    | some t => if t.spawned then some (m.reload classes configs fails task t) else none
    | none => none
  | .joined fails =>
    match m.joining with
    | some (.reload task) =>
      some (({ m with market := none, joining := none } : CanvasProcess κ).stopped classes fails task)
    | some .operator => some { m with market := none, joining := none }
    | none => none
  | .grant fails =>
    match m.joining, m.waiters with
    | none, .stop caller :: rest =>
      let m : CanvasProcess κ := { m with waiters := rest }
      if m.market.isSome then some { m with joining := some caller }
      else
        match caller with
        | .reload task => some (m.stopped classes fails task)
        | .operator => some m
    | none, .start task config :: rest =>
      -- a source that is not stopped keeps its config and its state
      let m : CanvasProcess κ := { m with
        waiters := rest
        market := some (m.market.getD config)
        pollFailed := m.market.isSome && m.pollFailed }
      some (m.finish classes fails task)
    | _, _ => none
  | .operatorStop =>
    let m : CanvasProcess κ := { m with operatorStopped := true }
    if m.lockFree && m.market.isNone then some m else some (m.callStop .operator)
  | .polled ok =>
    -- `stop` has cancelled the loop of a source that is joined
    if m.market.isSome && m.joining.isNone then some { m with pollFailed := !ok } else none

end OpenPoly
